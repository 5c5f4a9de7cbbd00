import AutoQuantTrader.AccountingSteps

/-!
# What an account never loses

Facts, orders and applied commands are only ever added, and a commitment that is terminal stays
terminal.  A commitment of unknown outcome stays unknown or becomes terminal, with one exception: a
new cancel request makes it pending.  `Grows` states all of this for two states of an account, and
`Run.grows` for the two ends of any run.
-/

namespace AutoQuantTrader

open Result Sorting

variable {H : AccountingHashes} {Z : EasternTime} {spared : Prop}

/-! ## The relation -/

/-- A commitment may move from one state to the other, if unknown ones are `spared`. -/
def CommitmentState.Holds (spared : Prop) (a b : CommitmentState) : Prop :=
  (a = .terminal → b = .terminal) ∧ (spared → a = .unknown → b = .unknown ∨ b = .terminal)

namespace CommitmentState.Holds

variable {a b c : CommitmentState}

theorem refl (a : CommitmentState) : a.Holds spared a := ⟨id, fun _ => .inl⟩

theorem of_live (hterminal : a ≠ .terminal) (hunknown : spared → a ≠ .unknown) : a.Holds spared b :=
  ⟨fun h => absurd h hterminal, fun hspared h => absurd h (hunknown hspared)⟩

theorem trans (hab : a.Holds spared b) (hbc : b.Holds spared c) : a.Holds spared c := by
  refine ⟨fun ha => hbc.1 (hab.1 ha), fun hspared ha => ?_⟩
  rcases hab.2 hspared ha with hb | hb
  · exact hbc.2 hspared hb
  · exact .inr (hbc.1 hb)

end CommitmentState.Holds

/-- Everything the account has recorded is still there, and its commitments have moved as they
may. -/
structure AccountingState.Grows (spared : Prop) (s s' : AccountingState) : Prop where
  commands : s.commands ⊆ s'.commands
  submissions : s.submissions ⊆ s'.submissions
  brokerEvents : s.brokerEvents ⊆ s'.brokerEvents
  observations : s.observations ⊆ s'.observations
  cancelRequests : s.cancelRequests ⊆ s'.cancelRequests
  cashFlows : s.cashFlows ⊆ s'.cashFlows
  stockSplits : s.stockSplits ⊆ s'.stockSplits
  cashDividends : s.cashDividends ⊆ s'.cashDividends
  dividendPayments : s.dividendPayments ⊆ s'.dividendPayments
  settlementInstructions : s.settlementInstructions ⊆ s'.settlementInstructions
  settlementConfirmations : s.settlementConfirmations ⊆ s'.settlementConfirmations
  marks : s.marks ⊆ s'.marks
  commitments : ∀ c ∈ s.commitments, ∃ c' ∈ s'.commitments,
    c'.val.commitmentId = c.val.commitmentId ∧ c.val.state.Holds spared c'.val.state

variable {c updated : Commitment}

namespace AccountingState.Grows

variable {s s' s'' : AccountingState}

theorem refl (s : AccountingState) : s.Grows spared s := by
  refine ⟨?_, ?_, ?_, ?_, ?_, ?_, ?_, ?_, ?_, ?_, ?_, ?_, fun c hc => ⟨c, hc, rfl, .refl _⟩⟩ <;>
    exact List.Subset.refl _

theorem trans (h : s.Grows spared s') (h' : s'.Grows spared s'') : s.Grows spared s'' where
  commands := List.Subset.trans h.commands h'.commands
  submissions := List.Subset.trans h.submissions h'.submissions
  brokerEvents := List.Subset.trans h.brokerEvents h'.brokerEvents
  observations := List.Subset.trans h.observations h'.observations
  cancelRequests := List.Subset.trans h.cancelRequests h'.cancelRequests
  cashFlows := List.Subset.trans h.cashFlows h'.cashFlows
  stockSplits := List.Subset.trans h.stockSplits h'.stockSplits
  cashDividends := List.Subset.trans h.cashDividends h'.cashDividends
  dividendPayments := List.Subset.trans h.dividendPayments h'.dividendPayments
  settlementInstructions := List.Subset.trans h.settlementInstructions h'.settlementInstructions
  settlementConfirmations := List.Subset.trans h.settlementConfirmations h'.settlementConfirmations
  marks := List.Subset.trans h.marks h'.marks
  commitments := by
    intro c hc
    obtain ⟨c', hc', hid', hholds'⟩ := h.commitments c hc
    obtain ⟨c'', hc'', hid'', hholds''⟩ := h'.commitments c' hc'
    exact ⟨c'', hc'', hid''.trans hid', hholds'.trans hholds''⟩

/-- Replacing one commitment by one whose state it may move to. -/
theorem replaceCommitment (hids : (s.commitments.map (·.val.commitmentId)).Nodup)
    (hc : c ∈ s.commitments) (hid : updated.val.commitmentId = c.val.commitmentId)
    (hholds : c.val.state.Holds spared updated.val.state) :
    s.Grows spared (replaceCommitment s updated) := by
  have hrefl : s.Grows spared s := refl s
  refine { hrefl with commitments := fun x hx => ?_ }
  by_cases hkey : x.val.commitmentId = updated.val.commitmentId
  · obtain rfl : x = c := List.inj_on_of_nodup_map hids hx hc (hkey.trans hid)
    exact ⟨updated, Keyed.mem_replace_self hc hid, hid, hholds⟩
  · exact ⟨x, Keyed.mem_replace_of_ne hx hkey, rfl, .refl _⟩

end AccountingState.Grows

/-! ## Events and observations -/

section steps

variable {context : AccountingContext} {policy : ExecutionPolicy} {s s' : AccountingState}
  {due : List DueAccountingEvent} {reasons : List Str}

theorem commitmentIds_replaceCommitment (updated : Commitment) :
    (replaceCommitment s updated).commitments.map (·.val.commitmentId) =
      s.commitments.map (·.val.commitmentId) := Keyed.map_replace fun _ _ hb => hb

variable {event : BrokerOrderEvent}

/-- An event resolves an unknown commitment or leaves it unknown. -/
theorem commitmentAfter_holds (h : commitmentAfter policy event c before after = .ok updated) :
    updated.val.commitmentId = c.val.commitmentId ∧
      c.val.state.Holds spared updated.val.state := by
  simp only [commitmentAfter, updateCommitment, Py.eq_ok] at h
  obtain ⟨_, -, _, -, _, -, _, -, hupdated⟩ := h
  rw [hupdated]
  refine ⟨rfl, fun hterminal => ?_, fun _ hunknown => ?_⟩
  · simp [stateAfter, hterminal]
  · simp only [stateAfter, hunknown]
    split
    · exact .inr rfl
    · split <;> simp

/-- An applied event joins the facts and no commitment is lost. -/
theorem applyEvent_grows (hids : (s.commitments.map (·.val.commitmentId)).Nodup)
    (h : applyEvent H Z context policy event s = .ok (s', due)) :
    s.Grows spared s' ∧ event ∈ s'.brokerEvents ∧ s'.commitments.map (·.val.commitmentId) =
      s.commitments.map (·.val.commitmentId) := by
  rcases applyEvent_cases h with ⟨hmem, rfl, -⟩ | ⟨-, _, _, c, _, _, updated, points, instructions,
    -, -, hc, -, -, hupdated, hinstructions, rfl⟩
  · exact ⟨.refl s', hmem, rfl⟩
  · obtain ⟨hid, hholds⟩ := commitmentAfter_holds hupdated
    have hmem := List.mem_of_find?_eq_some hc
    refine ⟨?_, mem_sortOn_append, commitmentIds_replaceCommitment updated⟩
    exact { AccountingState.Grows.replaceCommitment hids hmem hid hholds with
      brokerEvents := subset_sortOn_append
      settlementInstructions := hinstructions }

variable {o : ExecutionObservation} {st st' : ObservationState}

/-- Looking at one commitment keeps every fact and every commitment. -/
theorem observeCommitment_grows (hids : (st.state.commitments.map (·.val.commitmentId)).Nodup)
    (h : observeCommitment H Z context policy o st c = .ok st') :
    st.state.Grows spared st'.state ∧ st'.state.commitments.map (·.val.commitmentId) =
      st.state.commitments.map (·.val.commitmentId) := by
  obtain ⟨hstate | ⟨-, current, -, -, hstate | ⟨event, report, due, -, happly⟩⟩, -⟩ :=
    observeCommitment_cases h
  · rw [hstate]
    exact ⟨.refl _, rfl⟩
  · rw [hstate]
    have hrefl : st.state.Grows spared st.state := .refl _
    exact ⟨{ hrefl with }, rfl⟩
  · obtain ⟨hgrows, -, hsame⟩ := applyEvent_grows hids happly
    exact ⟨hgrows, hsame⟩

/-- All the turns of an observation. -/
theorem observeTurns_grows {turns : List Commitment}
    (hids : (st.state.commitments.map (·.val.commitmentId)).Nodup)
    (h : turns.foldlM (observeCommitment H Z context policy o) st = .ok st') :
    st.state.Grows spared st'.state := by
  refine (foldlM_invariant (fun x : ObservationState => st.state.Grows spared x.state ∧
    x.state.commitments.map (·.val.commitmentId) =
      st.state.commitments.map (·.val.commitmentId)) ?_ ⟨.refl _, rfl⟩ h).1
  rintro x c x' - ⟨hgrows, hsame⟩ hstep
  obtain ⟨hstepGrows, hstepSame⟩ := observeCommitment_grows (by rw [hsame]; exact hids) hstep
  exact ⟨hgrows.trans hstepGrows, hstepSame.trans hsame⟩

/-! ## Any command -/

/-- The command is no new cancel request for the order of a commitment that is unknown. -/
def SparesUnknown (s : AccountingState) (command : AccountingCommand) : Prop :=
  ∀ request, command.payload = .orderCancelRequest request →
    request ∈ s.cancelRequests ∨
      ∀ c ∈ s.commitments, c.val.orderId = request.val.orderId → c.val.state ≠ .unknown

variable {command : AccountingCommand}

/-- **No command loses what an account has recorded**, and none but a cancel request takes a
commitment out of unknown before it is terminal. -/
theorem Applies.grows (hids : (s.commitments.map (·.val.commitmentId)).Nodup)
    (hspares : spared → SparesUnknown s command)
    (h : Applies H Z context policy before s command.payload s' due reasons) :
    s.Grows spared s' := by
  have hrefl : s.Grows spared s := .refl s
  generalize hpayload : command.payload = payload at h
  cases h with
  | repeated => exact hrefl
  | installed =>
    exact { hrefl with
      submissions := subset_sortOn_append
      commitments := fun c hc => ⟨c, subset_sortOn_append hc, rfl, .refl _⟩ }
  | @activated _ _ active _ _ c hmem _ hstate _ hactive _ _ happly =>
    have hreplaced : s.Grows spared (replaceCommitment s active) := by
      refine .replaceCommitment hids hmem (by rw [hactive]) (.of_live ?_ fun _ => ?_) <;>
        simp [hstate]
    refine hreplaced.trans (applyEvent_grows ?_ happly).1
    rw [commitmentIds_replaceCommitment]
    exact hids
  | observed _ hturns =>
    have hadded : AccountingState.Grows spared _ _ := observeTurns_grows hids hturns
    exact { hadded with observations := List.Subset.trans subset_sortOn_append hadded.observations }
  | received happly => exact (applyEvent_grows hids happly).1
  | @canceling request pending c hnew hc hlive hpending =>
    have hmem := List.mem_of_find?_eq_some hc
    have horder : c.val.orderId = request.val.orderId := by simpa using List.find?_some hc
    have hknown : spared → c.val.state ≠ .unknown := by
      intro hspared
      rcases hspares hspared request hpayload with hrequest | hother
      · exact absurd rfl (hnew request hrequest)
      · exact hother c hmem horder
    have hreplaced : s.Grows spared (replaceCommitment s pending) :=
      .replaceCommitment hids hmem (by rw [hpending]) (.of_live hlive hknown)
    exact { hreplaced with cancelRequests := subset_sortOn_append }
  | moved => exact { hrefl with cashFlows := subset_sortOn_append }
  | split => exact { hrefl with stockSplits := subset_sortOn_append }
  | accrued => exact { hrefl with cashDividends := subset_sortOn_append }
  | paid => exact { hrefl with dividendPayments := subset_sortOn_append }
  | instructed =>
    exact { hrefl with settlementInstructions := subset_sortOn_append }
  | confirmed =>
    exact { hrefl with settlementConfirmations := subset_sortOn_append }
  | marked => exact { hrefl with marks := subset_sortOn_append }
  | unresolved hmem _ hlive hunknown =>
    refine .replaceCommitment hids hmem (by rw [hunknown]) ?_
    rw [hunknown]
    exact ⟨fun hterminal => absurd hterminal hlive, fun _ _ => .inl rfl⟩
  | released _ hmem _ hlive _ hreleased =>
    refine .replaceCommitment hids hmem ?_ ?_ <;> rw [hreleased, CommitmentFields.release]
    exact ⟨fun hterminal => absurd hterminal hlive, fun _ _ => .inr rfl⟩
  | controlled => exact { hrefl with }

/-- An answer that is not an application leaves the account as it was; an application gives the
updated account with the command recorded, halted if it has no capacity left. -/
theorem Answer.state_eq {before : AccountingTransition} (hbefore : before.state = s)
    (h : Answer H Z s command context policy before t) : t.state = s ∨ ∃ updated due reasons,
      apply H Z context policy before.snapshot s command.payload = .ok (updated, due, reasons) ∧
      updated ≠ s ∧
      (t.state = recordCommand H policy command s updated ∨
        t.state = { recordCommand H policy command s updated with halted := true }) := by
  cases h with
  | @applied updated due reasons after _ _ happly hchanged hafter =>
    obtain ⟨first, hfirst, ⟨-, -, rfl, -⟩ | ⟨-, hhalted, -⟩⟩ := projectUpdated_cases hafter
    · exact .inr ⟨updated, due, reasons, happly, hchanged, .inl (project_spec hfirst).1⟩
    · exact .inr ⟨updated, due, reasons, happly, hchanged, .inr (project_spec hhalted).1⟩
  | _ => exact .inl hbefore

theorem recordCommand_grows (h : s.Grows spared s') :
    s.Grows spared (recordCommand H policy command s s') :=
  { h with commands := fun _ hc => mem_sortOn.2 (List.mem_append_left _ hc) }

/-- **No answer loses anything.** -/
theorem advance_grows (hspares : spared → SparesUnknown s command)
    (h : advance H Z s command context policy = .ok t) : s.Grows spared t.state := by
  obtain ⟨before, hbefore, hanswer⟩ := advance_cases h
  obtain ⟨hstate, -, -, -, hids, -⟩ := project_spec hbefore
  rcases hanswer.state_eq hstate with hsame | ⟨updated, due, reasons, happly, -,
    hrecorded | hrecorded⟩
  · rw [hsame]
    exact .refl s
  all_goals
    have hgrows : s.Grows spared (recordCommand H policy command s updated) :=
      recordCommand_grows ((apply_applies happly).grows hids hspares)
    rw [hrecorded]
  · exact hgrows
  · exact { hgrows with }

end steps

/-- **No run loses anything.** -/
theorem Run.grows {allowed : AccountingState → AccountingCommand → Prop}
    (hspares : spared → ∀ s command, allowed s command → SparesUnknown s command)
    (h : Run H Z allowed s s') : s.Grows spared s' := by
  refine Relation.ReflTransGen.trans_induction_on h (fun s => .refl s) ?_
    fun _ _ h₁ h₂ => h₁.trans h₂
  rintro s s' ⟨command, context, policy, t, hallowed, hadvance, rfl⟩
  exact advance_grows (fun hspared => hspares hspared s command hallowed) hadvance

end AutoQuantTrader
