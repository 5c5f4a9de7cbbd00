import AutoQuantTrader.EngineDecision
import AutoQuantTrader.InstalledAccount
import AutoQuantTrader.RiskApproval

/-!
# An approved batch and its installation

Risk approves a batch at the marks of a snapshot and checks that every hold fits its column; the
installation recomputes price, fees and reserve and checks them again, one intent at a time.  The
two agree except on one amount: the approved price, which risk never looks at and which a commitment
has to fit into its column.
-/

namespace AutoQuantTrader

open Result Sorting

namespace Engine

variable {Z : EasternTime} (E : EngineEnv Z)

/-! ## The identities of a batch -/

def orderIdOf (intent : OrderIntent) : Str :=
  E.hashes.canonicalId "order"
    [.text intent.val.intentId, .text (E.hashes.intentPayloadHash intent)]

def clientOrderIdOf (intent : OrderIntent) : Str :=
  "aqt-" ++ Str.mk (((orderIdOf E intent).chars.filter (· ≠ '-')).take 24)

/-- The price a commitment approves. -/
def approvedPriceOf (intent : OrderIntent) : ℚ :=
  intent.val.referencePrice * (1 + E.spec.riskPolicy.val.adverseReserveFraction)

/-- The identities derived for an intent are texts that the records accept, and the account has not
used them. -/
@[mk_iff] structure FreshIdentity (decision : DailyRiskDecision) (state : AccountingState)
    (intent : OrderIntent) : Prop where
  commitmentText : isBoundedText (commitmentIdOf E intent)
  intentText : isBoundedText intent.val.intentId
  orderText : isBoundedText (orderIdOf E intent)
  attemptText : isText (attemptIdOf E intent)
  clientText : isText (clientOrderIdOf E intent)
  decisionText : isText (E.hashes.decision decision)
  newCommand : commitmentIdOf E intent ∉ state.commands.map (·.1)
  newOrder : orderIdOf E intent ∉ state.submissions.map (·.val.orderId)
  newIntent : intent.val.intentId ∉ state.commitments.map (·.val.intentId)
  newCommitment : commitmentIdOf E intent ∉ state.commitments.map (·.val.commitmentId)

instance (decision : DailyRiskDecision) (state : AccountingState) (intent : OrderIntent) :
    Decidable (FreshIdentity E decision state intent) :=
  decidable_of_iff' _ (freshIdentity_iff E decision state intent)

/-- The same of a whole batch, whose identities are also told apart. -/
@[mk_iff] structure FreshIdentities (decision : DailyRiskDecision) (state : AccountingState)
    (intents : List OrderIntent) : Prop where
  each : ∀ intent ∈ intents, FreshIdentity E decision state intent
  commitments : (intents.map (commitmentIdOf E)).Nodup
  orders : (intents.map (orderIdOf E)).Nodup

instance (decision : DailyRiskDecision) (state : AccountingState) (intents : List OrderIntent) :
    Decidable (FreshIdentities E decision state intents) :=
  decidable_of_iff' _ (freshIdentities_iff E decision state intents)

/-! ## The installation without the machine -/

/-- The next point of the installation. -/
def nextPoint (p : EnginePoint) : EnginePoint := { p with sequence := p.sequence + 1, stage := 6 }

/-- The intents are submitted one after the other, and every commitment is applied. -/
inductive InstallsAll (batch : DailyIntentBatch) (decision : DailyRiskDecision)
    (before : AccountSnapshot) : List OrderIntent → AccountingState → EnginePoint →
      AccountingState → List AccountingTransition → Prop
  | nil {state : AccountingState} {p : EnginePoint} :
      InstallsAll batch decision before [] state p state []
  | cons {intent : OrderIntent} {rest : List OrderIntent} {state state' : AccountingState}
      {p : EnginePoint} {result : AccountingTransition} {results : List AccountingTransition}
      (htry : tryIntent E batch decision before state (nextPoint p) intent = .ok result)
      (happlied : result.disposition = .applied)
      (hrest : InstallsAll batch decision before rest result.state (nextPoint p) state' results) :
      InstallsAll batch decision before (intent :: rest) state p state' (result :: results)

variable {E} {batch : DailyIntentBatch} {decision : DailyRiskDecision} {before : AccountSnapshot}
  {intents : List OrderIntent} {p : EnginePoint} {state state' : AccountingState}

/-- Every intent of an installed batch has one applied transition. -/
theorem InstallsAll.results {results : List AccountingTransition}
    (h : InstallsAll E batch decision before intents state p state' results) :
    results.length = intents.length ∧ ∀ r ∈ results, r.disposition = .applied := by
  induction h with
  | nil => simp
  | cons htry happlied hrest ih =>
    refine ⟨by rw [List.length_cons, List.length_cons, ih.1], fun r hr => ?_⟩
    rcases List.mem_cons.1 hr with rfl | hmem
    · exact happlied
    · exact ih.2 r hmem

/-- The loop installs a batch when it installs every intent of it. -/
theorem installIntents_iff :
    (∃ s', installIntents E batch decision before intents state done s =
      (.ok (.installed state' results), s')) ↔
      ∃ new, results = done ++ new ∧
        InstallsAll E batch decision before intents state s.toEnginePoint state' new := by
  induction intents generalizing state done s with
  | nil =>
    constructor
    · rintro ⟨s', hrun⟩
      cases hrun
      exact ⟨[], (List.append_nil _).symm, .nil⟩
    · rintro ⟨new, rfl, hall⟩
      cases hall
      exact ⟨s, by rw [List.append_nil]; rfl⟩
  | cons intent rest ih =>
    let p := nextPoint s.toEnginePoint
    have hcons : installIntents E batch decision before (intent :: rest) state done s =
        (py (tryIntent E batch decision before state p intent) >>= fun result =>
          if result.disposition ≠ .applied then pure (.rolledBack result.reasons)
          else installIntents E batch decision before rest result.state (done ++ [result]))
            { s with toEnginePoint := p } := rfl
    have hstep : py (tryIntent E batch decision before state p intent)
        { s with toEnginePoint := p } =
        ((tryIntent E batch decision before state p intent).mapError .raised,
          { s with toEnginePoint := p }) := rfl
    rw [hcons]
    cases htry : tryIntent E batch decision before state p intent with
    | error e =>
      rw [htry] at hstep
      rw [Machine.bind_of_error hstep]
      constructor
      · rintro ⟨s', hrun⟩
        cases hrun
      · rintro ⟨new, -, hall⟩
        cases hall with
        | cons htry' => rw [htry] at htry'; cases htry'
    | ok result =>
      rw [htry] at hstep
      rw [Machine.bind_of_ok hstep]
      by_cases happlied : result.disposition = .applied
      · rw [if_neg (not_not.2 happlied), ih]
        constructor
        · rintro ⟨new, rfl, hall⟩
          exact ⟨result :: new, by simp, .cons htry happlied hall⟩
        · rintro ⟨new, rfl, hall⟩
          cases hall with
          | cons htry' _ hrest =>
            rw [htry] at htry'
            cases htry'
            exact ⟨_, by simp, hrest⟩
      · rw [if_pos happlied]
        constructor
        · rintro ⟨s', hrun⟩
          cases hrun
        · rintro ⟨new, -, hall⟩
          cases hall with
          | cons htry' happlied' =>
            rw [htry] at htry'
            cases htry'
            exact absurd happlied' happlied

/-! ## What an installation needs -/

/-- The submission and the commitment that an intent is installed with. -/
structure Offers (E : EngineEnv Z) (batch : DailyIntentBatch) (decision : DailyRiskDecision)
    (before : AccountSnapshot) (p : EnginePoint) (intent : OrderIntent)
    (submission : OrderSubmission) (c : Commitment) : Prop where
  submitted : createOrderSubmission E.hashes.toOrderHashes intent (E.hashes.decision decision)
    (attemptIdOf E intent) p.now = .ok submission
  committed : intentCommitment E batch decision before p.sequence submission intent = .ok c

variable {intent : OrderIntent}

theorem Offers.submission_val (h : Offers E batch decision before p intent submission c) :
    submission.val = {
      orderId := orderIdOf E intent
      submissionAttemptId := attemptIdOf E intent
      clientOrderId := clientOrderIdOf E intent
      riskDecisionId := E.hashes.decision decision
      intent
      submittedAt := p.now } :=
  construct_eq_ok.1 h.submitted

/-- The identifiers of an offer, and the texts and the price its records have accepted. -/
theorem Offers.spec (h : Offers E batch decision before p intent submission c) :
    c.val.commitmentId = commitmentIdOf E intent ∧ c.val.intentId = intent.val.intentId ∧
      c.val.orderId = orderIdOf E intent ∧ isPersisted (approvedPriceOf E intent) ∧
      isBoundedText (commitmentIdOf E intent) ∧ isBoundedText intent.val.intentId ∧
      isBoundedText (orderIdOf E intent) ∧ isText (attemptIdOf E intent) ∧
      isText (clientOrderIdOf E intent) ∧ isText (E.hashes.decision decision) := by
  have hsubmission := h.submission_val
  have hpassed := submission.passes
  rw [hsubmission] at hpassed
  simp only [OrderSubmissionFields.postInit, eq_ok, requireText_eq_ok] at hpassed
  obtain ⟨_, -, _, hattempt, _, hclient, _, hdecision, -⟩ := hpassed
  have hcommitted := h.committed
  simp only [intentCommitment, approvedPrice, Py.eq_ok] at hcommitted
  obtain ⟨hold, -, price, ⟨factor, hfactor, hprice⟩, fees, -, hc⟩ := hcommitted
  have hvalue : price = approvedPriceOf E intent := by
    rw [exactDecimalMultiply_eq hprice, exactDecimalAdd_eq hfactor, approvedPriceOf]
  have hchecks := c.passes
  rw [hc] at hchecks
  simp only [CommitmentFields.postInit, eq_ok, requireBoundedText_eq_ok] at hchecks
  obtain ⟨_, hcommitment, _, hintent, _, horder, _, -, _, -, _, -, _, -, _, -, _, -, _, -, _,
    happroved, -⟩ := hchecks
  rw [hsubmission] at horder
  refine ⟨by rw [hc], by rw [hc], by rw [hc, hsubmission], ?_, hcommitment, hintent, horder,
    hattempt, hclient, hdecision⟩
  exact hvalue ▸ isPersisted_of_requireAmount happroved

/-- The account has the identities of one more intent. -/
structure AddsIdentities (E : EngineEnv Z) (intent : OrderIntent) (state state' : AccountingState) :
    Prop where
  commands : ∀ id, id ∈ state'.commands.map (·.1) ↔
    id = commitmentIdOf E intent ∨ id ∈ state.commands.map (·.1)
  orders : ∀ id, id ∈ state'.submissions.map (·.val.orderId) ↔
    id = orderIdOf E intent ∨ id ∈ state.submissions.map (·.val.orderId)
  intents : ∀ id, id ∈ state'.commitments.map (·.val.intentId) ↔
    id = intent.val.intentId ∨ id ∈ state.commitments.map (·.val.intentId)
  commitments : ∀ id, id ∈ state'.commitments.map (·.val.commitmentId) ↔
    id = commitmentIdOf E intent ∨ id ∈ state.commitments.map (·.val.commitmentId)

theorem mem_map_sortOn_append {α κ ι : Type} [LinearOrder κ] (key : α → κ) (f : α → ι) (l : List α)
    (a : α) (i : ι) : i ∈ (sortOn key (l ++ [a])).map f ↔ i = f a ∨ i ∈ l.map f := by
  rw [((sortOn_perm key (l ++ [a])).map f).mem_iff, List.map_append, List.mem_append,
    List.map_singleton, List.mem_singleton, or_comm]

/-- An installation adds the intent's own identities and no other. -/
theorem addsIdentities_installed (hcommitment : c.val.commitmentId = commitmentIdOf E intent)
    (hintent : c.val.intentId = intent.val.intentId)
    (horder : submission.val.orderId = orderIdOf E intent) : AddsIdentities E intent state
      (installed H policy (installCommand submission c) state submission c) where
  commands id := by
    rw [← hcommitment]
    exact mem_map_sortOn_append _ _ _ _ id
  orders id := by
    rw [← horder]
    exact mem_map_sortOn_append _ _ _ _ id
  intents id := by
    rw [← hintent]
    exact mem_map_sortOn_append _ _ _ _ id
  commitments id := by
    rw [← hcommitment]
    exact mem_map_sortOn_append _ _ _ _ id

/-- What is fresh to an account with one more intent was fresh to it before, and differs. -/
theorem FreshIdentity.of_adds (hadds : AddsIdentities E intent state state')
    (h : FreshIdentity E decision state' other) :
    FreshIdentity E decision state other ∧ commitmentIdOf E other ≠ commitmentIdOf E intent ∧
      orderIdOf E other ≠ orderIdOf E intent := by
  have hcommand := (not_or.1 (mt (hadds.commands _).2 h.newCommand))
  have horder := (not_or.1 (mt (hadds.orders _).2 h.newOrder))
  have hintent := (not_or.1 (mt (hadds.intents _).2 h.newIntent))
  have hcommitment := (not_or.1 (mt (hadds.commitments _).2 h.newCommitment))
  exact ⟨{ h with
    newCommand := hcommand.2
    newOrder := horder.2
    newIntent := hintent.2
    newCommitment := hcommitment.2 }, hcommand.1, horder.1⟩

/-- The converse: an intent that differs from the one added is as fresh as it was. -/
theorem FreshIdentity.adds (hadds : AddsIdentities E intent state state')
    (h : FreshIdentity E decision state other)
    (hcommitment : commitmentIdOf E other ≠ commitmentIdOf E intent)
    (horder : orderIdOf E other ≠ orderIdOf E intent)
    (hintent : other.val.intentId ≠ intent.val.intentId) : FreshIdentity E decision state' other :=
  { h with
    newCommand := fun hmem => ((hadds.commands _).1 hmem).elim hcommitment h.newCommand
    newOrder := fun hmem => ((hadds.orders _).1 hmem).elim horder h.newOrder
    newIntent := fun hmem => ((hadds.intents _).1 hmem).elim hintent h.newIntent
    newCommitment := fun hmem =>
      ((hadds.commitments _).1 hmem).elim hcommitment h.newCommitment }

/-- An intent that is installed had a price and identities that its records accept. -/
theorem tryIntent_applied (hport : E.accounting = personalAccounting E.hashes.toAccountingHashes Z)
    (h : tryIntent E batch decision before state p intent = .ok result)
    (happlied : result.disposition = .applied) :
    isPersisted (approvedPriceOf E intent) ∧ FreshIdentity E decision state intent ∧
      AddsIdentities E intent state result.state := by
  simp only [tryIntent, eq_ok, hport] at h
  obtain ⟨submission, hsubmitted, c, hcommitted, hadvance⟩ := h
  have hoffers : Offers E batch decision before p intent submission c := ⟨hsubmitted, hcommitted⟩
  obtain ⟨hcommitment, hintent, horder, hprice, hcommitmentText, hintentText, horderText, hattempt,
    hclient, hdecision⟩ := hoffers.spec
  have hsubmission : submission.val.orderId = orderIdOf E intent := by rw [hoffers.submission_val]
  obtain ⟨hcommand, hnew, hfresh, halted, hstate⟩ := advance_install_applied hadvance happlied
  refine ⟨hprice, ?_, ?_⟩
  · exact {
      commitmentText := hcommitmentText
      intentText := hintentText
      orderText := horderText
      attemptText := hattempt
      clientText := hclient
      decisionText := hdecision
      newCommand := hcommitment ▸ hcommand
      newOrder := fun hmem => by
        obtain ⟨x, hx, hid⟩ := List.mem_map.1 hmem
        exact hnew x hx (hid.trans hsubmission.symm)
      newIntent := fun hmem => by
        obtain ⟨q, hq, hid⟩ := List.mem_map.1 hmem
        exact (hfresh q hq).1 (hid.trans hintent.symm)
      newCommitment := fun hmem => by
        obtain ⟨q, hq, hid⟩ := List.mem_map.1 hmem
        exact (hfresh q hq).2 (hid.trans hcommitment.symm) }
  · have hadds : AddsIdentities E intent state (installed E.hashes.toAccountingHashes
        E.spec.executionPolicy (installCommand submission c) state submission c) :=
      addsIdentities_installed hcommitment hintent hsubmission
    rw [hstate]
    exact ⟨hadds.commands, hadds.orders, hadds.intents, hadds.commitments⟩

/-- **What every installed batch had**: prices that fit and fresh identities. -/
theorem InstallsAll.needs {results : List AccountingTransition}
    (hport : E.accounting = personalAccounting E.hashes.toAccountingHashes Z)
    (h : InstallsAll E batch decision before intents state p state' results) :
    (∀ intent ∈ intents, isPersisted (approvedPriceOf E intent)) ∧
      FreshIdentities E decision state intents := by
  induction h with
  | nil => exact ⟨by simp, ⟨by simp, List.nodup_nil, List.nodup_nil⟩⟩
  | @cons intent rest state _ p result results htry happlied hrest ih =>
    obtain ⟨hprice, hfresh, hadds⟩ := tryIntent_applied hport htry happlied
    have hlater (other : OrderIntent) (hother : other ∈ rest) :=
      FreshIdentity.of_adds hadds (ih.2.each other hother)
    refine ⟨fun i hi => ?_, fun i hi => ?_, ?_, ?_⟩
    · rcases List.mem_cons.1 hi with rfl | hmem
      · exact hprice
      · exact ih.1 i hmem
    · rcases List.mem_cons.1 hi with rfl | hmem
      · exact hfresh
      · exact (hlater i hmem).1
    · rw [List.map_cons, List.nodup_cons]
      refine ⟨fun hmem => ?_, ih.2.commitments⟩
      obtain ⟨other, hother, heq⟩ := List.mem_map.1 hmem
      exact (hlater other hother).2.1 heq
    · rw [List.map_cons, List.nodup_cons]
      refine ⟨fun hmem => ?_, ih.2.orders⟩
      obtain ⟨other, hother, heq⟩ := List.mem_map.1 hmem
      exact (hlater other hother).2.2 heq

end Engine

end AutoQuantTrader
