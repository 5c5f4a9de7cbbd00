import AutoQuantTrader.AccountHistory

/-!
# Commitments of unknown outcome

A commitment whose outcome is unknown halts the account: the halt is not stored but read off the
commitments at every projection.  While it lasts no order is installed or activated and no
observation fills anything.  A cancel request for an unknown commitment makes it pending and so
lifts the halt although nothing is known yet (`cancel_lifts_unknown`); `unknown_blocks_of_run` is
the guarantee for the runs without such requests.
-/

namespace AutoQuantTrader

open Result Sorting

variable {H : AccountingHashes} {Z : EasternTime} {context : AccountingContext}
  {policy : ExecutionPolicy} {s s' : AccountingState}

/-! ## The halt -/

variable {c : Commitment} {t : AccountingTransition}

/-- The snapshot of an account with an unknown commitment is halted. -/
theorem halted_of_unknown (hc : c ∈ s.commitments) (hunknown : c.val.state = .unknown)
    (h : project H s context policy = .ok t) : t.snapshot.halted = true := by
  obtain ⟨-, -, -, -, -, -, _, _, _, _, -, -, -, hsnapshot⟩ := project_spec h
  simp only [accountSnapshot, eq_ok] at hsnapshot
  obtain ⟨_, -, _, -, _, -, _, -, _, -, _, -, _, -, _, -, _, -, _, -, _, -, _, -, _, -, _, -, _, -,
    hsnapshot⟩ := hsnapshot
  rw [← hsnapshot]
  exact decide_eq_true (.inr (.inr (.inr ⟨c, hc, hunknown⟩)))

/-- A halted account fills nothing: every turn of an observation leaves it alone. -/
theorem observeTurns_of_unknown {turns : List Commitment} {st : ObservationState}
    (hc : c ∈ st.state.commitments) (hunknown : c.val.state = .unknown)
    (h : turns.foldlM (observeCommitment H Z context policy o) st = .ok st') :
    st'.state = st.state := by
  refine foldlM_invariant (fun x : ObservationState => x.state = st.state) ?_ rfl h
  intro x turn x' _ hsame hstep
  obtain ⟨hstate | ⟨-, current, hcurrent, hopen, -⟩, -⟩ := observeCommitment_cases hstep
  · exact hstate.trans hsame
  · rw [hsame] at hcurrent
    rw [halted_of_unknown hc hunknown hcurrent] at hopen
    exact absurd hopen (by simp)

/-! ## What is blocked -/

/-- The account takes no new exposure from an answer: no order is installed or activated, and an
observation adds no broker event and moves no commitment. -/
def BlocksExposure (s : AccountingState) (command : AccountingCommand) (t : AccountingTransition) :
    Prop :=
  match command.payload with
  | .installCommitment _ _ => t.disposition ≠ .applied
  | .activateCommitment _ => t.disposition ≠ .applied
  | .executionObservation _ =>
    t.state.brokerEvents = s.brokerEvents ∧ t.state.commitments = s.commitments
  | _ => True

/-- **An unknown commitment blocks every new exposure.** -/
theorem advance_blocks (hc : c ∈ s.commitments) (hunknown : c.val.state = .unknown)
    (h : advance H Z s command context policy = .ok t) : BlocksExposure s command t := by
  obtain ⟨before, hbefore, hanswer⟩ := advance_cases h
  obtain ⟨hstate, -⟩ := project_spec hbefore
  have hhalted := halted_of_unknown hc hunknown hbefore
  have hidle {t : AccountingTransition} (hsame : t.state = s) (hother : t.disposition ≠ .applied) :
      BlocksExposure s command t := by
    unfold BlocksExposure
    split
    · exact hother
    · exact hother
    · rw [hsame]
      exact ⟨rfl, rfl⟩
    · trivial
  cases hanswer with
  | @applied updated due reasons after _ _ happly hchanged hafter =>
    have happlies := apply_applies happly
    unfold BlocksExposure
    cases hpayload : command.payload with
    | installCommitment submission c =>
      rw [hpayload] at happlies
      cases happlies with
      | repeated => exact absurd rfl hchanged
      | installed hopen => exact absurd (hopen.symm.trans hhalted) (by simp)
    | activateCommitment commitmentId =>
      rw [hpayload] at happlies
      cases happlies with
      | repeated hrecorded => exact hrecorded.elim
      | activated _ _ _ hopen => exact absurd (hopen.symm.trans hhalted) (by simp)
    | executionObservation o =>
      rw [hpayload] at happlies
      cases happlies with
      | repeated => exact absurd rfl hchanged
      | observed _ hturns =>
        have hsame := observeTurns_of_unknown hc hunknown hturns
        obtain ⟨first, hfirst, ⟨-, -, rfl, -⟩ | ⟨-, hproject, -⟩⟩ := projectUpdated_cases hafter
        · simp only [(project_spec hfirst).1, recordCommand, hsame, and_self]
        · simp only [(project_spec hproject).1, recordCommand, hsame, and_self]
    | _ => trivial
  | _ => exact hidle hstate (by simp)

/-! ## Runs -/

/-- **Unknown commitments block the account until they are resolved**: along every run without a new
cancel request for an unknown commitment, a commitment that was unknown is terminal, or it is still
unknown and no command installs, activates or fills anything. -/
theorem unknown_blocks_of_run {c : Commitment} (hc : c ∈ s.commitments)
    (hunknown : c.val.state = .unknown) (hrun : Run H Z SparesUnknown s s') :
    ∃ c' ∈ s'.commitments, c'.val.commitmentId = c.val.commitmentId ∧
      (c'.val.state = .terminal ∨
        (c'.val.state = .unknown ∧ ∀ command context policy t,
          advance H Z s' command context policy = .ok t → BlocksExposure s' command t)) := by
  obtain ⟨c', hc', hid, -, hholds⟩ :=
    (hrun.grows fun (_ : True) _ _ hspares => hspares).commitments c hc
  refine ⟨c', hc', hid, ?_⟩
  rcases hholds trivial hunknown with hstill | hterminal
  · exact .inr ⟨hstill, fun _ _ _ _ => advance_blocks hc' hstill⟩
  · exact .inl hterminal

/-! ## A lost purchase -/

namespace Sample

/-- A request to cancel an order as it stands. -/
def cancellation (s : AccountingState) (orderId : Str) (now : Instant) : Py OrderCancelRequest := do
  let orderStates ← orders .plain s
  let order ← getOrThrow (orderStates.find? (·.submission.val.orderId = orderId)) .stopIteration
  construct {
    cancelRequestId := "cancel"
    orderId
    priorOrderStateSha256 := AccountingHashes.plain.orderState order
    requestedAt := now
    reason := "owner" }

/-- The outcome of the purchase becomes unknown. -/
def uncertain : Py (AccountingTransition × Commitment) := do
  let (activated, commitment) ← activated
  let uncertain ← send activated.state 4 none "lost"
    (.modelDisposition commitment.val.commitmentId .unknown "no answer")
  return (uncertain, commitment)

/-- The owner halts the account as well. -/
def stopped : Py (AccountingTransition × AccountingTransition) := do
  let (uncertain, _) ← uncertain
  let stopped ← send uncertain.state 5 none "stop" (.controlCommand true "owner")
  return (uncertain, stopped)

/-- The unknown purchase is to be canceled, and then another order is installed. -/
def resumed : Py (AccountingTransition × OrderCancelRequest × AccountingTransition ×
    AccountingTransition) := do
  let (uncertain, commitment) ← uncertain
  let request ← cancellation uncertain.state commitment.val.orderId 5
  let canceling ← send uncertain.state 5 none "cancel" (.orderCancelRequest request)
  let (submission, second) ← order "second" .buy canceling.snapshot
  let resumed ← send canceling.state 6 (some canceling.snapshot) "again"
    (.installCommitment submission second)
  return (uncertain, request, canceling, resumed)

end Sample

theorem sample_unknown_blocks : ∃ s s' c, c ∈ s.commitments ∧ c.val.state = .unknown ∧
    Run .plain .standard SparesUnknown s s' ∧ s'.revision = s.revision + 1 ∧
    ∃ c' ∈ s'.commitments, c'.val.commitmentId = c.val.commitmentId ∧
      (c'.val.state = .terminal ∨
        (c'.val.state = .unknown ∧ ∀ command context policy t,
          advance .plain .standard s' command context policy = .ok t →
            BlocksExposure s' command t)) := by
  have h : (fun x => (decide (∃ c ∈ x.1.state.commitments, c.val.state = .unknown),
      decide (x.2.state.revision = x.1.state.revision + 1))) <$> Sample.stopped =
      .ok (true, true) := by
    decide +kernel
  simp only [Sample.stopped, Sample.send, eq_ok, Prod.mk.injEq, decide_eq_true_eq] at h
  obtain ⟨_, ⟨⟨uncertain, _⟩, -, stopped, ⟨_, -, hstopped⟩, rfl⟩, ⟨c, hc, hunknown⟩, hrevision⟩ := h
  have hrun : Run .plain .standard SparesUnknown uncertain.state stopped.state := by
    refine .single ⟨_, _, _, _, ?_, hstopped, rfl⟩
    intro request heq
    contradiction
  exact ⟨_, _, c, hc, hunknown, hrun, hrevision, unknown_blocks_of_run hc hunknown hrun⟩

/-- A cancel request takes a commitment out of unknown although nothing has resolved it, and the
account installs another order while it is pending. -/
theorem cancel_lifts_unknown : ∃ s c request command context policy t c' command'
    context' policy' t' submission second,
    Run .plain .standard (fun _ _ => True) (.initial "account") s ∧ c ∈ s.commitments ∧
    c.val.state = .unknown ∧
    command.payload = .orderCancelRequest request ∧ c.val.orderId = request.val.orderId ∧
    advance .plain .standard s command context policy = .ok t ∧ t.disposition = .applied ∧
    c' ∈ t.state.commitments ∧ c'.val.commitmentId = c.val.commitmentId ∧
    c'.val.state = .pendingCancel ∧
    command'.payload = .installCommitment submission second ∧
    advance .plain .standard t.state command' context' policy' = .ok t' ∧
    t'.disposition = .applied := by
  have h : (fun x => (decide (∃ c ∈ x.1.state.commitments, c.val.state = .unknown ∧
      c.val.orderId = x.2.1.val.orderId ∧ ∃ c' ∈ x.2.2.1.state.commitments,
        c'.val.commitmentId = c.val.commitmentId ∧ c'.val.state = .pendingCancel),
      x.2.2.1.disposition, x.2.2.2.disposition)) <$> Sample.resumed =
      .ok (true, .applied, .applied) := by
    decide +kernel
  simp only [Sample.resumed, Sample.uncertain, Sample.send, eq_ok, Prod.mk.injEq,
    decide_eq_true_eq] at h
  obtain ⟨_, ⟨⟨uncertain, _⟩, ⟨⟨activated, _⟩, hactivated, _, ⟨_, -, huncertain⟩, rfl, -⟩, request,
    -, canceling, ⟨_, -, hcanceling⟩, ⟨submission, second⟩, -,
    resumed, ⟨_, -, hresumed⟩, rfl⟩, ⟨c, hc, hunknown, horder, c', hc', hid, hpending⟩, happlied,
    happlied'⟩ := h
  have hrun : Run .plain .standard (fun _ _ => True) (.initial "account") uncertain.state := by
    refine .tail ((Sample.activated_run hactivated).mono ?_) ⟨_, _, _, _, trivial, huncertain, rfl⟩
    intro _ _ _
    trivial
  exact ⟨_, c, request, _, _, _, canceling, c', _, _, _, resumed, submission, second, hrun, hc,
    hunknown, rfl, horder, hcanceling, happlied, hc', hid, hpending, rfl, hresumed, happlied'⟩

end AutoQuantTrader
