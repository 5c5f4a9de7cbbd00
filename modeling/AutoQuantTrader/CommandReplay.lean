import AutoQuantTrader.AccountHistory

/-!
# Sending a command again

An applied command is in the log and will not be applied again.  A command that changed nothing is
answered as a duplicate and is *not* logged, so what happens when it comes again depends on its
payload: a fact that was there is still there, but a control flag or an unknown outcome may have
changed in the meantime (`control_applied_on_redelivery`).  `redelivery_unchanged` is the guarantee
for all other commands.
-/

namespace AutoQuantTrader

open Result Sorting

variable {H : AccountingHashes} {Z : EasternTime} {context : AccountingContext}
  {policy : ExecutionPolicy} {s s' : AccountingState}

/-- The payload asks for a flag or an outcome the account has already, and leaves no fact behind. -/
def Vacuous (s : AccountingState) : AccountingPayload → Prop
  | .controlCommand halted _ => s.halted = halted
  | .modelDisposition commitmentId .unknown _ =>
    ∃ c ∈ s.commitments, c.val.commitmentId = commitmentId ∧ c.val.state = .unknown
  | _ => False

/-! ## What is recorded stays recorded -/

/-- A recorded command stays recorded. -/
theorem Recorded.of_grows (h : s.Grows False s') (hrecorded : Recorded s payload) :
    Recorded s' payload := by
  cases payload with
  | installCommitment submission c => exact h.submissions hrecorded
  | activateCommitment commitmentId => exact hrecorded
  | executionObservation o => exact h.observations hrecorded
  | brokerOrderEvent event => exact h.brokerEvents hrecorded
  | orderCancelRequest request => exact h.cancelRequests hrecorded
  | ledgerCashFlow flow => exact h.cashFlows hrecorded
  | stockSplitAction split => exact h.stockSplits hrecorded
  | cashDividendAccrual dividend => exact h.cashDividends hrecorded
  | cashDividendPayment payment => exact h.dividendPayments hrecorded
  | settlementInstruction instruction => exact h.settlementInstructions hrecorded
  | settlementConfirmation confirmation => exact h.settlementConfirmations hrecorded
  | causalMark mark => exact h.marks hrecorded
  | modelDisposition commitmentId kind evidenceId =>
    obtain ⟨hkind, c, hc, hid, hterminal⟩ := hrecorded
    obtain ⟨c', hc', hid', hholds, -⟩ := h.commitments c hc
    exact ⟨hkind, c', hc', hid'.trans hid, hholds hterminal⟩
  | controlCommand halted reason => exact hrecorded

/-- **A recorded payload changes nothing** when it is applied again. -/
theorem Applies.eq_of_recorded (hids : (s.commitments.map (·.val.commitmentId)).Nodup)
    (hrecorded : Recorded s payload)
    (h : Applies H Z context policy before s payload s' due reasons) : s' = s := by
  cases h with
  | repeated => rfl
  | @installed submission _ _ _ _ _ _ _ hnew _ => exact absurd rfl (hnew submission hrecorded)
  | activated => exact hrecorded.elim
  | @observed o _ hnew _ => exact absurd rfl (hnew o hrecorded)
  | @received event _ _ happly =>
    rcases applyEvent_cases happly with ⟨-, hsame, -⟩ | ⟨hnew, -⟩
    · exact hsame
    · exact absurd rfl (hnew event hrecorded)
  | @canceling request _ _ hnew _ _ _ => exact absurd rfl (hnew request hrecorded)
  | @moved flow hnew _ _ => exact absurd rfl (hnew flow hrecorded)
  | @split split hnew _ => exact absurd rfl (hnew split hrecorded)
  | @accrued dividend hnew => exact absurd rfl (hnew dividend hrecorded)
  | @paid payment hnew => exact absurd rfl (hnew payment hrecorded)
  | @instructed instruction hnew => exact absurd rfl (hnew instruction hrecorded)
  | @confirmed confirmation hnew => exact absurd rfl (hnew confirmation hrecorded)
  | @marked mark hnew => exact absurd rfl (hnew mark hrecorded)
  | unresolved => exact absurd rfl hrecorded.1
  | released _ hmem hid hlive _ _ =>
    obtain ⟨-, c, hc, hcid, hterminal⟩ := hrecorded
    obtain rfl := List.inj_on_of_nodup_map hids hmem hc (hid.trans hcid.symm)
    exact absurd hterminal hlive
  | controlled => exact hrecorded.elim

/-- An activation is never without effect. -/
theorem activated_ne {active : Commitment} (hids : (s.commitments.map (·.val.commitmentId)).Nodup)
    (hmem : c ∈ s.commitments) (hid : active.val.commitmentId = c.val.commitmentId)
    (hstate : active.val.state ≠ c.val.state)
    (happly : applyEvent H Z context policy accepted (replaceCommitment s active) =
      .ok (s', due)) : s' ≠ s := by
  rcases applyEvent_cases happly with ⟨-, rfl, -⟩ | ⟨-, _, _, _, _, _, _, _, _, -, -, -,
    -, -, -, -, rfl⟩
  · intro heq
    have hactive : active ∈ (replaceCommitment s active).commitments :=
      Keyed.mem_replace_self hmem hid
    rw [heq] at hactive
    obtain rfl := List.inj_on_of_nodup_map hids hactive hmem hid
    exact hstate rfl
  · intro heq
    exact sortOn_append_ne (congrArg AccountingState.brokerEvents heq)

/-- **What a payload leaves behind**: it is recorded, or asking for it again is vacuous, or it has
changed the account. -/
theorem Applies.recorded (hids : (s.commitments.map (·.val.commitmentId)).Nodup)
    (h : Applies H Z context policy before s payload s' due reasons) :
    Recorded s' payload ∨ Vacuous s' payload ∨ s' ≠ s := by
  cases h with
  | repeated hrecorded => exact .inl hrecorded
  | activated hmem _ hstate _ hactive _ _ happly =>
    refine .inr (.inr (activated_ne hids hmem ?_ ?_ happly)) <;> rw [hactive]
    simp [hstate]
  | observed _ hturns =>
    have hadded : AccountingState.Grows False _ _ := observeTurns_grows hids hturns
    exact .inl (hadded.observations mem_sortOn_append)
  | received happly =>
    have hadded : AccountingState.Grows False _ _ ∧ _ := applyEvent_grows hids happly
    exact .inl hadded.2.1
  | @unresolved _ _ unknown c hmem hid _ hunknown =>
    have hsame : unknown.val.commitmentId = c.val.commitmentId := by rw [hunknown]
    exact .inr
      (.inl ⟨unknown, Keyed.mem_replace_self hmem hsame, hsame.trans hid, by rw [hunknown]⟩)
  | @released _ _ _ released c hkind hmem hid _ _ hreleased =>
    have hsame : released.val.commitmentId = c.val.commitmentId := by
      rw [hreleased, CommitmentFields.release]
    exact .inl ⟨hkind, released, Keyed.mem_replace_self hmem hsame, hsame.trans hid,
      by rw [hreleased, CommitmentFields.release]⟩
  | controlled => exact .inr (.inl rfl)
  | _ => exact .inl mem_sortOn_append

/-! ## Answers -/

variable {command : AccountingCommand} {t : AccountingTransition}

/-- An answer that is not an application leaves the account as it was. -/
theorem Answer.unchanged_of_not_applied {before : AccountingTransition} (hbefore : before.state = s)
    (happlied : t.disposition ≠ .applied) (h : Answer H Z s command context policy before t) :
    t.state = s := by
  cases h with
  | applied _ _ _ hafter =>
    obtain ⟨first, hfirst, ⟨-, -, rfl, -⟩ | ⟨-, hhalted, -⟩⟩ := projectUpdated_cases hafter
    · exact absurd (project_spec hfirst).2.1 happlied
    · exact absurd (project_spec hhalted).2.1 happlied
  | _ => exact hbefore

/-- A command in the log is never applied. -/
theorem advance_of_logged (hlogged : command.commandId ∈ s.commands.map (·.1))
    (h : advance H Z s command context policy = .ok t) : t.state = s := by
  obtain ⟨before, hbefore, hanswer⟩ := advance_cases h
  have hstate := (project_spec hbefore).1
  have hfound : lookup s.commands command.commandId ≠ none := fun hnone =>
    lookup_eq_none.1 hnone hlogged
  cases hanswer with
  | conflict => exact hstate
  | known => exact hstate
  | rejected hunknown _ => exact absurd hunknown hfound
  | unchanged hunknown _ => exact absurd hunknown hfound
  | applied hunknown _ _ _ => exact absurd hunknown hfound

/-- A command whose payload is recorded is never applied. -/
theorem advance_of_recorded (hrecorded : Recorded s command.payload)
    (h : advance H Z s command context policy = .ok t) : t.state = s := by
  obtain ⟨before, hbefore, hanswer⟩ := advance_cases h
  obtain ⟨hstate, -, -, -, hids, -⟩ := project_spec hbefore
  rcases hanswer.state_eq hstate with hsame | ⟨updated, due, reasons, happly, hchanged, -⟩
  · exact hsame
  · exact absurd ((apply_applies happly).eq_of_recorded hids hrecorded) hchanged

/-- **An accepted command is logged, or its payload is recorded**, unless it was vacuous. -/
theorem logged_or_recorded
    (hfresh : command.commandId ∈ s.commands.map (·.1) ∨ ¬ Vacuous s command.payload)
    (haccepted : t.disposition ≠ .rejected) (h : advance H Z s command context policy = .ok t) :
    command.commandId ∈ t.state.commands.map (·.1) ∨ Recorded t.state command.payload := by
  obtain ⟨before, hbefore, hanswer⟩ := advance_cases h
  obtain ⟨hstate, -, -, -, hids, -⟩ := project_spec hbefore
  cases hanswer with
  | conflict => exact absurd rfl haccepted
  | known hknown =>
    left
    rw [hstate]
    by_contra hmissing
    rw [lookup_eq_none.2 hmissing] at hknown
    exact absurd hknown (by simp)
  | rejected => exact absurd rfl haccepted
  | unchanged hunknown happly =>
    right
    rw [hstate]
    rcases (apply_applies happly).recorded hids with hrecorded | hvacuous | hchanged
    · exact hrecorded
    · exact hfresh.elim (fun hlogged => absurd hlogged (lookup_eq_none.1 hunknown))
        fun hnot => absurd hvacuous hnot
    · exact absurd rfl hchanged
  | @applied updated _ _ _ _ _ _ _ hafter =>
    left
    have hlogged : command.commandId ∈
        (recordCommand H policy command s updated).commands.map (·.1) :=
      List.mem_map.2 ⟨(command.commandId, H.command command),
        mem_sortOn.2 (List.mem_append_right _ (List.mem_singleton_self _)), rfl⟩
    obtain ⟨first, hfirst, ⟨-, -, rfl, -⟩ | ⟨-, hhalted, -⟩⟩ := projectUpdated_cases hafter
    · rw [(project_spec hfirst).1]
      exact hlogged
    · rw [(project_spec hhalted).1]
      exact hlogged

/-! ## Redelivery -/

/-- **Redelivery is idempotent.**  An answer that is not an application leaves the account as it
was. A command once accepted, and not vacuous when it was, changes nothing when it comes again,
whatever commands have come in between. -/
theorem redelivery_unchanged {command : AccountingCommand} {t : AccountingTransition}
    (h : advance H Z s command context policy = .ok t) :
    (t.disposition ≠ .applied → t.state = s) ∧
      (t.disposition ≠ .rejected →
        (command.commandId ∈ s.commands.map (·.1) ∨ ¬ Vacuous s command.payload) →
        ∀ s' context' policy' t', Run H Z (fun _ _ => True) t.state s' →
          advance H Z s' command context' policy' = .ok t' → t'.state = s') := by
  constructor
  · intro happlied
    obtain ⟨before, hbefore, hanswer⟩ := advance_cases h
    exact hanswer.unchanged_of_not_applied (project_spec hbefore).1 happlied
  · intro haccepted hfresh s' context' policy' t' hrun hagain
    have hgrows : t.state.Grows False s' := hrun.grows False.elim
    rcases logged_or_recorded hfresh haccepted h with hlogged | hrecorded
    · refine advance_of_logged ?_ hagain
      obtain ⟨entry, hentry, hid⟩ := List.mem_map.1 hlogged
      exact List.mem_map.2 ⟨entry, hgrows.commands hentry, hid⟩
    · exact advance_of_recorded (hrecorded.of_grows hgrows) hagain

namespace Sample

/-- Resume an account that is not halted, halt it, and send the first command again. -/
def reopened : Py (AccountingTransition × AccountingTransition × AccountingTransition) := do
  let first ← send (.initial "account") 1 none "resume" (.controlCommand false "owner")
  let halted ← send first.state 2 none "halt" (.controlCommand true "owner")
  let again ← send halted.state 3 none "resume" (.controlCommand false "owner")
  return (first, halted, again)

/-- Fund an account, halt it, and send the contribution again. -/
def refunded : Py (AccountingTransition × AccountingTransition × AccountingTransition) := do
  let contribution ← contribution
  let funded ← send (.initial "account") 1 none "fund" contribution
  let halted ← send funded.state 2 none "halt" (.controlCommand true "owner")
  let again ← send halted.state 3 none "fund" contribution
  return (funded, halted, again)

end Sample

theorem sample_redelivery : ∃ s s' command context policy context' policy' t t',
    advance .plain .standard s command context policy = .ok t ∧ t.disposition = .applied ∧
    Run .plain .standard (fun _ _ => True) t.state s' ∧ s' ≠ t.state ∧
    advance .plain .standard s' command context' policy' = .ok t' ∧ t'.state = s' := by
  have h : (fun x => (x.1.disposition, decide (x.2.1.state = x.1.state))) <$> Sample.refunded =
      .ok (.applied, false) := by
    decide +kernel
  simp only [Sample.refunded, Sample.contribution, Sample.send, eq_ok, Prod.mk.injEq,
    decide_eq_false_iff_not] at h
  obtain ⟨_, ⟨_, ⟨flow, -, rfl⟩, funded, ⟨_, -, hfunded⟩, halted, ⟨_, -, hhalted⟩, again,
    ⟨_, -, hagain⟩, rfl⟩, happlied, hchanged⟩ := h
  have hrun : Run .plain .standard (fun _ _ => True) funded.state halted.state :=
    .single ⟨_, _, _, _, trivial, hhalted, rfl⟩
  have haccepted : funded.disposition ≠ .rejected := by
    rw [show funded.disposition = .applied from happlied]
    simp
  refine ⟨_, _, _, _, _, _, _, funded, again, hfunded, happlied, hrun, hchanged, hagain, ?_⟩
  exact (redelivery_unchanged hfunded).2 haccepted (.inr id) _ _ _ _ hrun hagain

/-- A control command that changed nothing is answered as a duplicate and not logged: after the flag
has changed, the same command is applied. -/
theorem control_applied_on_redelivery : ∃ s command context policy t s' context' policy' t',
    advance .plain .standard s command context policy = .ok t ∧ t.disposition = .duplicate ∧
    Run .plain .standard (fun _ _ => True) t.state s' ∧
    advance .plain .standard s' command context' policy' = .ok t' ∧ t'.disposition = .applied ∧
    t'.state ≠ s' := by
  have h : (fun x => (x.1.disposition, x.2.2.disposition,
      decide (x.2.2.state = x.2.1.state))) <$> Sample.reopened =
      .ok (.duplicate, .applied, false) := by
    decide +kernel
  simp only [Sample.reopened, Sample.send, eq_ok, Prod.mk.injEq, decide_eq_false_iff_not] at h
  obtain ⟨_, ⟨first, ⟨_, -, hfirst⟩, halted, ⟨_, -, hhalted⟩, again, ⟨_, -, hagain⟩, rfl⟩,
    hduplicate, happlied, hchanged⟩ := h
  exact ⟨_, _, _, _, first, _, _, _, again, hfirst, hduplicate,
    .single ⟨_, _, _, _, trivial, hhalted, rfl⟩, hagain, happlied, hchanged⟩

end AutoQuantTrader
