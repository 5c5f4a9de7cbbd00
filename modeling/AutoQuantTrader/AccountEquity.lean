import AutoQuantTrader.AccountingSteps
import AutoQuantTrader.AccountProjection
import AutoQuantTrader.SettlementLaws

/-!
# The equity of a simulated account

A snapshot mixes the lot book, the dividends and a settlement ledger that knows of no dividend.
The cash of the three agrees, and net asset value is the money put in and the money made.  The
ledgers book a cash flow once and in dollars only, while the net external flow of the snapshot adds
up every flow the state holds, so the second identity needs the two sums to agree; the commands of
an account keep them equal, a state built by hand may not (`repeated_flow_overstated`).
-/

namespace AutoQuantTrader

open Result

variable {H : AccountingHashes} {s : AccountingState} {context : AccountingContext}
  {policy : ExecutionPolicy} {t : AccountingTransition}

/-- The cash flows the ledgers book: each once, in dollars. -/
def AccountingState.bookedFlows (s : AccountingState) : ℚ :=
  ((s.cashFlows.dedup.filter (·.val.currency = ("USD" : Str))).map signedFlow).sum

theorem positionState_costBasis (h : positionState s p = .ok position) :
    position.costBasis = p.basis := by
  simp only [positionState, eq_ok] at h
  obtain ⟨_, -, basis, hbasis, _, -, rfl⟩ := h
  exact exactDecimalSum_eq hbasis

/-- **The identities of a snapshot**: what has settled, is owed to the account and is owed by it is
its cash; and its value is the net external flow and all gains exactly when the flows of the state
are those the ledgers book. -/
theorem projected_equity (h : project H s context policy = .ok t) :
    t.snapshot.settledCash + t.snapshot.tradeReceivable - t.snapshot.tradePayable =
        t.snapshot.tradeDateCash ∧
      ∀ nav ∈ t.snapshot.nav, ∃ gain ∈ t.snapshot.unrealizedPnl,
        (nav = t.snapshot.netExternalFlow + t.snapshot.grossRealizedPnl - t.snapshot.fees +
            t.snapshot.dividendIncome + gain ↔
          (s.cashFlows.map signedFlow).sum = s.bookedFlows) := by
  obtain ⟨-, -, -, -, -, -, orderStates, facts, settlement, entries, -, -, hledgers, hsnapshot⟩ :=
    project_spec h
  obtain ⟨hfacts, hsettlement⟩ := ledgers_spec hledgers
  obtain ⟨-, hopen, hreceivables, hpayables⟩ := reduceSettlementLedger_open hsettlement
  simp only [projectUnvaluedFifoAccount, eq_ok] at hfacts
  obtain ⟨evidence, hevidence, hreduce⟩ := hfacts
  obtain ⟨-, hcost⟩ := costValue_eq hevidence hreduce
  have hflows : (s.facts orderStates).contributions - (s.facts orderStates).withdrawals =
      s.bookedFlows := by
    rw [← sum_signedAmount, AccountingState.bookedFlows, sum_map_filter]
    rfl
  simp only [accountSnapshot, eq_ok] at hsnapshot
  obtain ⟨positions, hpositions, unsettled, hunsettled, settled, hsettled, _, -, _, -, _, -, _, -,
    _, -, v, -, value, hvalue, _, -, gross, hgross, fees, hfees, unrealizedPnl, hunrealized, flow,
    hflow, hsnapshot⟩ := hsnapshot
  rw [← hsnapshot]
  constructor
  · change settled + settlement.receivables - settlement.payables = facts.cash
    rw [exactDecimalAdd_eq hsettled, exactDecimalSubtract_eq hunsettled, hopen, hreceivables,
      hpayables, openTotal_id]
    ring
  · rintro nav (rfl : value = some nav)
    change ∃ gain ∈ unrealizedPnl, (nav = flow + gross - fees + _ + gain ↔ _)
    by_cases hpriced : v.reasons = []
    · simp only [netAssetValue, unrealized, hpriced, decide_true, if_true, eq_ok,
        Option.some.injEq] at hvalue hunrealized
      obtain ⟨liquid, hliquid, value, hvalue, rfl⟩ := hvalue
      obtain ⟨basis, hbasis, gain, hgain, rfl⟩ := hunrealized
      refine ⟨gain, rfl, ?_⟩
      rw [← exactDecimalSum_eq hflow, ← hflows, exactDecimalAdd_eq hvalue,
        exactDecimalAdd_eq hliquid, exactDecimalSubtract_eq hgain, exactDecimalSum_eq hbasis,
        sum_map_of_mapM (fun _ _ => positionState_costBasis) hpositions, exactDecimalSum_eq hgross,
        exactDecimalSum_eq hfees]
      constructor <;> intro hnav <;> linarith
    · simp [netAssetValue, hpriced] at hvalue

/-- The account that has bought shares, marked, with each of its cash flows held a number of
times. -/
def Sample.marked (times : Nat) :
    Py (AccountingState × ExecutionPolicy × AccountingTransition) := do
  let policy ← Sample.policy
  let bought ← Sample.bought
  let mark ← construct {
    markId := "mark"
    instrumentId := "i1"
    symbol := "ABC"
    price := 26
    session := 719162
    economicAt := 5
    knowledgeAt := 5
    sourceSha256 := "m"
    quality := .current
    basis := .rawClose }
  let s := { bought.state with
    marks := [mark]
    cashFlows := (List.replicate times bought.state.cashFlows).flatten }
  let t ← project .plain s (Sample.context 5 none) policy
  return (s, policy, t)

theorem equity_of_marked : ∃ s context policy t gain, project .plain s context policy = .ok t ∧
    t.snapshot.nav = some (25199 / 25) ∧
    t.snapshot.settledCash + t.snapshot.tradeReceivable - t.snapshot.tradePayable =
      t.snapshot.tradeDateCash ∧
    25199 / 25 = t.snapshot.netExternalFlow + t.snapshot.grossRealizedPnl - t.snapshot.fees +
      t.snapshot.dividendIncome + gain := by
  have h : (fun x => (x.2.2.snapshot.nav,
      decide ((x.1.cashFlows.map signedFlow).sum = x.1.bookedFlows))) <$> Sample.marked 1 =
      .ok (some (25199 / 25), true) := by decide +kernel
  simp only [Sample.marked, eq_ok, Prod.mk.injEq, decide_eq_true_eq] at h
  obtain ⟨_, ⟨policy, -, bought, -, mark, -, t, ht, rfl⟩, hnav, hflows⟩ := h
  obtain ⟨hcash, hequity⟩ := projected_equity ht
  obtain ⟨gain, -, heq⟩ := hequity _ hnav
  exact ⟨_, _, policy, t, gain, ht, hnav, hcash, heq.2 hflows⟩

/-- A flow that is held twice is booked once and reported twice. -/
theorem repeated_flow_overstated : ∃ s context policy t nav gain,
    project .plain s context policy = .ok t ∧ t.snapshot.nav = some nav ∧
    t.snapshot.unrealizedPnl = some gain ∧
    nav ≠ t.snapshot.netExternalFlow + t.snapshot.grossRealizedPnl - t.snapshot.fees +
      t.snapshot.dividendIncome + gain := by
  have h : (fun x => (x.2.2.snapshot.nav, x.2.2.snapshot.unrealizedPnl,
      decide (25199 / 25 ≠ x.2.2.snapshot.netExternalFlow + x.2.2.snapshot.grossRealizedPnl -
        x.2.2.snapshot.fees + x.2.2.snapshot.dividendIncome + 8))) <$> Sample.marked 2 =
      .ok (some (25199 / 25), some 8, true) := by decide +kernel
  simp only [Sample.marked, eq_ok, Prod.mk.injEq, decide_eq_true_eq] at h
  obtain ⟨_, ⟨policy, -, bought, -, mark, -, t, ht, rfl⟩, hnav, hgain, hne⟩ := h
  exact ⟨_, _, policy, t, _, _, ht, hnav, hgain, hne⟩

end AutoQuantTrader
