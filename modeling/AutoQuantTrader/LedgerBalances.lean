import Mathlib.Algebra.Group.Prod
import Mathlib.Tactic.Ring
import Mathlib.Tactic.Abel
import AutoQuantTrader.Ledger

/-!
# What the balances of the ledger are

A ledger in the abstract is a function from balance keys to an amount and a number of units, and
posting adds to it.  `projectBalances_spec` says that the projected balances are that function, so
every statement about an account becomes a statement about sums of effects:

* `cashFlowEntry_spec` — a cash flow moves cash against equity;
* `executionEntries_effect` — the entries of an order telescope: however its executions were
  corrected, together they have the effect of the revisions that are current at the end;
* `reduceExecutionLedger_spec` — the effect of the whole ledger.
-/

namespace AutoQuantTrader

open Result Sorting

/-! ## Effects -/

/-- The effect of changing one balance. -/
def change (key : BalanceKey) (amount units : ℚ) (k : BalanceKey) : ℚ × ℚ :=
  if key = k then (amount, units) else 0

theorem change_sub (key : BalanceKey) (a b u v : ℚ) (k : BalanceKey) :
    change key (a - b) (u - v) k = change key a u k - change key b v k := by
  unfold change
  split <;> simp

@[simp] theorem change_zero (key k : BalanceKey) : change key 0 0 k = 0 := by
  unfold change
  split <;> rfl

/-- The effect of one posting. -/
def CanonicalLedgerPostingFields.effect (p : CanonicalLedgerPostingFields) (k : BalanceKey) :
    ℚ × ℚ :=
  change p.key (p.debit - p.credit) p.unitsDelta k

/-- The effect of some postings. -/
def postingsEffect (postings : List CanonicalLedgerPosting) (k : BalanceKey) : ℚ × ℚ :=
  (postings.map fun p => p.val.effect k).sum

@[simp] theorem postingsEffect_nil (k : BalanceKey) : postingsEffect [] k = 0 := rfl

@[simp] theorem postingsEffect_append (ps qs : List CanonicalLedgerPosting) (k : BalanceKey) :
    postingsEffect (ps ++ qs) k = postingsEffect ps k + postingsEffect qs k := by
  simp [postingsEffect]

/-- The effect of some entries. -/
def entriesEffect (entries : List CanonicalLedgerEntry) (k : BalanceKey) : ℚ × ℚ :=
  (entries.map fun e => postingsEffect e.val.postings k).sum

@[simp] theorem entriesEffect_nil (k : BalanceKey) : entriesEffect [] k = 0 := rfl

@[simp] theorem entriesEffect_append (es fs : List CanonicalLedgerEntry) (k : BalanceKey) :
    entriesEffect (es ++ fs) k = entriesEffect es k + entriesEffect fs k := by
  simp [entriesEffect]

@[simp] theorem entriesEffect_singleton (e : CanonicalLedgerEntry) (k : BalanceKey) :
    entriesEffect [e] k = postingsEffect e.val.postings k := by
  simp [entriesEffect]

theorem entriesEffect_flatten (ess : List (List CanonicalLedgerEntry)) (k : BalanceKey) :
    entriesEffect ess.flatten k = (ess.map fun es => entriesEffect es k).sum := by
  induction ess with
  | nil => rfl
  | cons es ess ih => rw [List.flatten_cons, entriesEffect_append, ih, List.map_cons, List.sum_cons]

theorem entriesEffect_perm {es : List CanonicalLedgerEntry} (h : es.Perm fs) (k : BalanceKey) :
    entriesEffect es k = entriesEffect fs k :=
  (h.map _).sum_eq

theorem entriesEffect_eq_flatMap (entries : List CanonicalLedgerEntry) (k : BalanceKey) :
    entriesEffect entries k = postingsEffect (entries.flatMap (·.val.postings)) k := by
  induction entries with
  | nil => rfl
  | cons e entries ih =>
    rw [List.flatMap_cons, postingsEffect_append, ← ih]
    simp [entriesEffect]

/-! ## Balances are effects -/

variable {projected : Dict BalanceKey (ℚ × ℚ)}

/-- One posting adds its effect to the running balances. -/
theorem projectPosting_spec (h : projectPosting projected posting = .ok projected')
    (k : BalanceKey) : projected'.getD k 0 = projected.getD k 0 + posting.val.effect k := by
  simp only [projectPosting, eq_ok] at h
  obtain ⟨delta, hdelta, amount, hamount, units, hunits, rfl⟩ := h
  rw [exactDecimalAdd_eq hamount, exactDecimalAdd_eq hunits, exactDecimalSubtract_eq hdelta]
  unfold CanonicalLedgerPostingFields.effect change
  rw [Dict.getD, Dict.get?_set]
  by_cases hk : posting.val.key = k
  · subst hk
    simp only [if_true, Option.getD_some]
    rfl
  · rw [if_neg (Ne.symm hk), if_neg hk, add_zero]
    rfl

variable {postings : List CanonicalLedgerPosting}

/-- The projected balances are the effects of the postings. -/
theorem foldlM_projectPosting_spec (h : postings.foldlM projectPosting .empty = .ok projected)
    (k : BalanceKey) : projected.getD k 0 = postingsEffect postings k := by
  refine foldlM_invariant_done
    (fun done projected => projected.getD k 0 = postingsEffect done k) ?_ rfl h
  intro done posting projected projected' _ hdone hstep
  rw [projectPosting_spec hstep, hdone, postingsEffect_append]
  simp [postingsEffect]

variable {balances : List LedgerBalance}

/-- In a list with one balance for each key, a lookup returns what is stored. -/
theorem balanceAt_of_mem (hnodup : (balances.map (·.val.key)).Nodup) (h : balance ∈ balances) :
    balanceAt balances balance.val.key = (balance.val.amount, balance.val.units) := by
  induction balances with
  | nil => simp at h
  | cons b balances ih =>
    rw [List.map_cons, List.nodup_cons] at hnodup
    rcases List.mem_cons.1 h with rfl | hmem
    · simp [balanceAt]
    · have hne : b.val.key ≠ balance.val.key := fun heq =>
        hnodup.1 (heq ▸ List.mem_map.2 ⟨balance, hmem, rfl⟩)
      have htail := ih hnodup.2 hmem
      unfold balanceAt at htail ⊢
      rwa [List.find?_cons_of_neg (by simpa using hne)]

theorem balanceAt_of_not_mem (h : k ∉ balances.map (·.val.key)) : balanceAt balances k = 0 := by
  unfold balanceAt
  rw [List.find?_eq_none.2]
  · rfl
  · intro b hb hkey
    exact h (List.mem_map.2 ⟨b, hb, by simpa using hkey⟩)

/-- A projection keeps one balance for each key, and none that is zero. -/
structure IsProjection (balances : List LedgerBalance) : Prop where
  nodup : (balances.map (·.val.key)).Nodup
  ne_zero : ∀ b ∈ balances, (b.val.amount, b.val.units) ≠ 0

/-- The balances made from a dictionary: those entries that are not zero. -/
theorem balanceAt_of_mapM
    (h : ((sortOn (fun item => item.1.order) projected.entries).filter fun item => item.2.1 ≠ 0 ∨
      item.2.2 ≠ 0).mapM (fun item => construct ⟨item.1, item.2.1, item.2.2⟩) = .ok balances) :
    IsProjection balances ∧ ∀ k, balanceAt balances k = projected.getD k 0 := by
  set kept := (sortOn (fun item => item.1.order) projected.entries).filter
    fun item => item.2.1 ≠ 0 ∨ item.2.2 ≠ 0 with hkept
  have hfields : balances.map (·.val) =
      kept.map fun item => (⟨item.1, item.2.1, item.2.2⟩ : LedgerBalanceFields) := by
    have hrel := (mapM_eq_ok.1 h).imp fun item b hb => construct_eq_ok.1 hb
    exact (List.forall₂_map_right_iff.2 (List.forall₂_map_left_iff.2 (hrel.imp
      fun _ _ hb => hb.symm)) |> List.forall₂_eq_eq_eq.le _ _).symm
  have hkeys : balances.map (·.val.key) = kept.map Prod.fst := by
    have := congrArg (List.map LedgerBalanceFields.key) hfields
    simpa [List.map_map, Function.comp_def] using this
  have hnodup : (balances.map (·.val.key)).Nodup := by
    rw [hkeys]
    refine List.Nodup.sublist (List.filter_sublist.map Prod.fst) ?_
    exact ((sortOn_perm _ _).map Prod.fst).nodup_iff.2 projected.nodup
  have hmem (k : BalanceKey) (v : ℚ × ℚ) : (k, v) ∈ kept ↔ projected.get? k = some v ∧ v ≠ 0 := by
    simp only [hkept, List.mem_filter, mem_sortOn, Dict.get?_eq_some, decide_eq_true_eq, ne_eq,
      Prod.ext_iff, Prod.fst_zero, Prod.snd_zero, not_and_or]
  have hkeptOf (b : LedgerBalance) (hb : b ∈ balances) :
      (b.val.key, (b.val.amount, b.val.units)) ∈ kept := by
    have : b.val ∈ balances.map (·.val) := List.mem_map.2 ⟨b, hb, rfl⟩
    rw [hfields, List.mem_map] at this
    obtain ⟨item, hitem, heq⟩ := this
    rw [← heq]
    exact hitem
  refine ⟨⟨hnodup, fun b hb => ((hmem _ _).1 (hkeptOf b hb)).2⟩, fun k => ?_⟩
  by_cases hk : k ∈ balances.map (·.val.key)
  · obtain ⟨b, hb, rfl⟩ := List.mem_map.1 hk
    rw [balanceAt_of_mem hnodup hb, Dict.getD, ((hmem _ _).1 (hkeptOf b hb)).1]
    rfl
  · rw [balanceAt_of_not_mem hk, Dict.getD]
    cases hget : projected.get? k with
    | none => rfl
    | some v =>
      by_cases hv : v = 0
      · simp [hv]
      · refine absurd ?_ hk
        rw [hkeys]
        exact List.mem_map.2 ⟨(k, v), (hmem k v).2 ⟨hget, hv⟩, rfl⟩

variable {entries : List CanonicalLedgerEntry}

/-- **Balances are effects**: the projected balance of a key is the sum of all postings to it. -/
theorem projectBalances_spec (h : projectBalances entries = .ok balances) :
    IsProjection balances ∧ ∀ k, balanceAt balances k = entriesEffect entries k := by
  simp only [projectBalances, eq_ok] at h
  obtain ⟨projected, hprojected, hbalances⟩ := h
  obtain ⟨hprojection, hat⟩ := balanceAt_of_mapM hbalances
  refine ⟨hprojection, fun k => ?_⟩
  rw [hat, foldlM_projectPosting_spec hprojected, entriesEffect_eq_flatMap]

/-! ## The effect of an entry -/

theorem postingFields_effect (key : BalanceKey) (amount units : ℚ) (k : BalanceKey) :
    (postingFields key amount units).effect k = change key amount units k := by
  unfold CanonicalLedgerPostingFields.effect postingFields
  congr 1
  rcases lt_trichotomy amount 0 with h | h | h
  · simp [h, h.le]
  · simp [h]
  · simp [h, h.le]

theorem postingFromDelta_effect (h : postingFromDelta key amount units = .ok posting)
    (k : BalanceKey) : postingsEffect posting.toList k = change key amount units k := by
  simp only [postingFromDelta, eq_ok, canonicalPersistedDecimal_eq_ok] at h
  obtain ⟨a, ⟨-, rfl⟩, u, ⟨-, rfl⟩, h⟩ := h
  split at h
  · next hzero =>
    rw [pure_eq_ok] at h
    subst h
    simp [hzero.1, hzero.2]
  · simp only [Py.eq_ok] at h
    obtain ⟨p, hp, rfl⟩ := h
    simp [postingsEffect, hp, postingFields_effect]

variable {entry : CanonicalLedgerEntry}

theorem ledgerEntry_spec
    (h : ledgerEntry canonicalId idKind kind referenceId sourceSha256 effectiveAt recordedAt
      postings = .ok entry) :
    entry.val.kind = kind ∧ entry.val.referenceId = referenceId ∧
      entry.val.postings.Perm postings := by
  rw [ledgerEntry, construct_eq_ok] at h
  rw [h]
  exact ⟨rfl, rfl, sortOn_perm _ _⟩

/-- An entry has the effect of its postings. -/
theorem ledgerEntry_effect
    (h : ledgerEntry canonicalId idKind kind referenceId sourceSha256 effectiveAt recordedAt
      postings = .ok entry)
    (k : BalanceKey) : postingsEffect entry.val.postings k = postingsEffect postings k :=
  ((ledgerEntry_spec h).2.2.map _).sum_eq

variable {H : LedgerHashes}

/-- The cash a flow brings into the account. -/
def LedgerCashFlowFields.signedAmount (f : LedgerCashFlowFields) : ℚ :=
  if f.kind = .contribution then f.amount else -f.amount

/-- A cash flow moves cash against contributions or distributions. -/
def LedgerCashFlowFields.effect (f : LedgerCashFlowFields) (k : BalanceKey) : ℚ × ℚ :=
  change ⟨.cash f.currency, f.currency, none⟩ f.signedAmount 0 k +
    change ⟨if f.kind = .contribution then .contributions else .distributions, f.currency, none⟩
      (-f.signedAmount) 0 k

theorem cashFlowEntry_spec (h : cashFlowEntry H flow = .ok entry) :
    entry.val.kind = .cashFlow ∧ entry.val.referenceId = flow.val.cashFlowId ∧
      ∀ k, postingsEffect entry.val.postings k = flow.val.effect k := by
  simp only [cashFlowEntry, eq_ok] at h
  obtain ⟨delta, hdelta, cash, hcash, equity, hequity, hentry⟩ := h
  have hsigned : delta = flow.val.signedAmount := by
    rw [exactDecimalMultiply_eq hdelta, LedgerCashFlowFields.signedAmount]
    split <;> ring
  refine ⟨(ledgerEntry_spec hentry).1, (ledgerEntry_spec hentry).2.1, fun k => ?_⟩
  rw [ledgerEntry_effect hentry, postingsEffect_append, postingFromDelta_effect hcash,
    postingFromDelta_effect hequity, hsigned]
  rfl

/-! ## The effect of an order's executions -/

/-- What an execution does, in exact arithmetic. -/
def ExecutionReport.economics (r : ExecutionReport) (side : Side) : ExecutionEconomics where
  cash := -(side.sign * (r.quantity * r.price)) - r.fee
  clearing := side.sign * (r.quantity * r.price)
  fee := r.fee
  units := side.sign * r.quantity

variable {x : ExecutionEconomics} {report : ExecutionReport}

/-- The checked economics are those of the report. -/
theorem executionEconomics_eq (h : executionEconomics report side = .ok x) :
    x = report.economics side := by
  simp only [executionEconomics, eq_ok] at h
  obtain ⟨notional, hnotional, h⟩ := h
  have hn := exactDecimalMultiply_eq hnotional
  cases side with
  | buy =>
    simp only [eq_ok] at h
    obtain ⟨total, htotal, rfl⟩ := h
    simp only [ExecutionReport.economics, Side.sign, exactDecimalAdd_eq htotal, hn]
    congr 1 <;> ring
  | sell =>
    simp only [eq_ok] at h
    obtain ⟨proceeds, hproceeds, rfl⟩ := h
    simp only [ExecutionReport.economics, Side.sign, exactDecimalSubtract_eq hproceeds, hn]
    congr 1 <;> ring

variable {current previous : ExecutionEconomics}

theorem subtract_eq (h : current.subtract previous = .ok x) :
    x = ⟨current.cash - previous.cash, current.clearing - previous.clearing,
      current.fee - previous.fee, current.units - previous.units⟩ := by
  simp only [ExecutionEconomics.subtract, eq_ok] at h
  obtain ⟨cash, hcash, clearing, hclearing, fee, hfee, units, hunits, rfl⟩ := h
  rw [exactDecimalSubtract_eq hcash, exactDecimalSubtract_eq hclearing,
    exactDecimalSubtract_eq hfee, exactDecimalSubtract_eq hunits]

/-- The effect of an execution of an instrument settled in a currency. -/
def ExecutionEconomics.effect (instrumentId currency : Str) (x : ExecutionEconomics)
    (k : BalanceKey) : ℚ × ℚ :=
  change ⟨.cash currency, currency, none⟩ x.cash 0 k +
    change ⟨.clearing instrumentId, currency, some instrumentId⟩ x.clearing x.units k +
    change ⟨.executionFees, currency, none⟩ x.fee 0 k

theorem effect_zero (instrumentId currency : Str) (k : BalanceKey) :
    (⟨0, 0, 0, 0⟩ : ExecutionEconomics).effect instrumentId currency k = 0 := by
  simp [ExecutionEconomics.effect]

variable {currency instrumentId : Str}

theorem effect_subtract (h : current.subtract previous = .ok x) (k : BalanceKey) :
    x.effect instrumentId currency k =
      current.effect instrumentId currency k - previous.effect instrumentId currency k := by
  rw [subtract_eq h]
  simp only [ExecutionEconomics.effect]
  rw [← sub_zero (0 : ℚ), change_sub, change_sub, change_sub]
  simp only [sub_zero]
  abel

theorem executionPostings_effect (h : executionPostings instrumentId currency delta = .ok postings)
    (k : BalanceKey) : postingsEffect postings k = delta.effect instrumentId currency k := by
  simp only [executionPostings, eq_ok] at h
  obtain ⟨cash, hcash, clearing, hclearing, fees, hfees, rfl⟩ := h
  rw [postingsEffect_append, postingsEffect_append, postingFromDelta_effect hcash,
    postingFromDelta_effect hclearing, postingFromDelta_effect hfees]
  rfl

/-- The effect of the current revision of an execution. -/
def headEffect (intent : OrderIntent) (currency : Str) (event : BrokerOrderEvent)
    (k : BalanceKey) : ℚ × ℚ :=
  match event.val.kind.report? with
  | some report =>
    (report.economics intent.val.side).effect intent.val.instrumentId currency k
  | none => 0

/-- The journal of an order after some events: it has the lifecycle's heads, and its entries have
the effect of those heads. -/
structure JournalInvariant (intent : OrderIntent) (currency : Str) (s : LifecycleState)
    (journal : ExecutionJournal) : Prop where
  heads : journal.predecessors = s.executionHeads
  effect : ∀ k, entriesEffect journal.entries k =
    journal.predecessors.sumBy fun _ event => headEffect intent currency event k

variable {event : BrokerOrderEvent} {posted : List CanonicalLedgerEntry}

/-- An event posts one entry under its own identity, or nothing when nothing changes. -/
theorem executionEntry_cases (h : executionEntry H event postings = .ok posted) :
    (postings = [] ∧ posted = []) ∨ ∃ entry, posted = [entry] ∧
      ledgerEntry H.canonicalId "ledger-entry" event.val.kind.entryKind event.val.eventId
        (H.brokerEvent event) event.val.occurredAt event.val.receivedAt postings = .ok entry := by
  unfold executionEntry at h
  split at h
  · next hempty =>
    rw [pure_eq_ok] at h
    exact .inl ⟨hempty, h.symm⟩
  · simp only [eq_ok] at h
    obtain ⟨entry, hentry, rfl⟩ := h
    exact .inr ⟨entry, rfl, hentry⟩

theorem executionEntry_effect (h : executionEntry H event postings = .ok posted) (k : BalanceKey) :
    entriesEffect posted k = postingsEffect postings k := by
  rcases executionEntry_cases h with ⟨rfl, rfl⟩ | ⟨entry, rfl, hentry⟩
  · rfl
  · rw [entriesEffect_singleton, ledgerEntry_effect hentry]

variable {intent : OrderIntent} {journal journal' : ExecutionJournal}

/-- What the journal does with an execution event: it posts the difference to what the event
replaces and makes the event current. -/
theorem journalEvent_spec (hreport : event.val.kind.report? = some report)
    (h : journalEvent H intent currency journal event = .ok journal') :
    ∃ previous delta postings posted,
      previousEconomics intent.val.side journal.predecessors event = .ok previous ∧
      executionPostings intent.val.instrumentId currency delta = .ok postings ∧
      executionEntry H event postings = .ok posted ∧
      journal' = ⟨journal.predecessors.set report.executionId event, journal.entries ++ posted⟩ ∧
      ∀ k, entriesEffect posted k = headEffect intent currency event k -
        previous.effect intent.val.instrumentId currency k := by
  unfold journalEvent at h
  rw [hreport] at h
  simp only [bind_eq_ok] at h
  obtain ⟨current, hcurrent, previous, hprevious, delta, hdelta, postings, hpostings, posted,
    hposted, h⟩ := h
  rw [pure_eq_ok] at h
  refine ⟨previous, delta, postings, posted, hprevious, hpostings, hposted, h.symm, fun k => ?_⟩
  rw [executionEntry_effect hposted, executionPostings_effect hpostings, effect_subtract hdelta,
    headEffect, hreport, executionEconomics_eq hcurrent]

/-- **One event keeps the journal telescoped.** -/
theorem journalEvent_invariant (hs : lifecycleStep submission cancelRequest s event = .ok s')
    (hj : journalEvent H intent currency journal event = .ok journal')
    (inv : JournalInvariant intent currency s journal) :
    JournalInvariant intent currency s' journal' := by
  obtain ⟨-, hcases⟩ := lifecycleStep_cases hs
  rcases hcases with ⟨hnone, hheads⟩ | ⟨report, hkind, hfresh, hheads⟩ |
    ⟨report, supersedes, before, hkind, hbefore, -, hheads⟩
  · unfold journalEvent at hj
    rw [hnone, pure_eq_ok] at hj
    subst hj
    exact ⟨inv.heads.trans hheads.symm, inv.effect⟩
  · have hreport : event.val.kind.report? = some report := by rw [hkind]; rfl
    obtain ⟨previous, _, _, posted, hprevious, -, -, rfl, heffect⟩ := journalEvent_spec hreport hj
    refine ⟨by rw [hheads, inv.heads], fun k => ?_⟩
    -- a first revision replaces nothing
    rw [previousEconomics, hkind, pure_eq_ok] at hprevious
    rw [entriesEffect_append, heffect, ← hprevious, effect_zero, sub_zero, Dict.sumBy_set,
      inv.heads, hfresh, ← inv.heads, inv.effect]
    simp
  · have hreport : event.val.kind.report? = some report := by rw [hkind]; rfl
    obtain ⟨previous, _, _, posted, hprevious, -, -, rfl, heffect⟩ := journalEvent_spec hreport hj
    refine ⟨by rw [hheads, inv.heads], fun k => ?_⟩
    -- a correction replaces the head it supersedes
    simp only [previousEconomics, hkind, eq_ok] at hprevious
    obtain ⟨predecessor, hget, old, hold, hprevious⟩ := hprevious
    have hhead : previous.effect intent.val.instrumentId currency k =
        headEffect intent currency predecessor k := by
      rw [headEffect, hold, executionEconomics_eq hprevious]
    rw [entriesEffect_append, heffect, Dict.sumBy_set, hget, inv.effect, hhead]
    simp only [Option.elim_some]
    abel

/-- The effect of an execution as it is projected. -/
def ExecutionProjection.effect (intent : OrderIntent) (currency : Str) (x : ExecutionProjection)
    (k : BalanceKey) : ℚ × ℚ :=
  (ExecutionReport.economics ⟨x.executionId, x.revision, x.quantity, x.price, x.fee⟩
    intent.val.side).effect intent.val.instrumentId currency k

theorem sum_effect_executionProjections (heads : Dict Str BrokerOrderEvent) (intent : OrderIntent)
    (currency : Str) (k : BalanceKey) :
    ((executionProjections heads).map fun x => x.effect intent currency k).sum =
      heads.sumBy fun _ event => headEffect intent currency event k := by
  refine sum_executionProjections heads fun id event => ?_
  unfold executionProjection headEffect
  cases event.val.kind.report? with
  | none => rfl
  | some report => simp [ExecutionProjection.effect]; rfl

variable {state : CanonicalOrderState}

/-- **The entries of an order telescope** to the effect of its current executions. -/
theorem executionEntries_effect (hstate : state.IsCanonical H.toOrderHashes)
    (h : executionEntries H state currency = .ok entries) (k : BalanceKey) :
    entriesEffect entries k =
      (state.executions.map fun x => x.effect state.submission.val.intent currency k).sum := by
  obtain ⟨-, -, -, -, final, hfinal, hexecutions, -⟩ := reduceOrderLifecycle_spec hstate
  simp only [executionEntries, eq_ok] at h
  obtain ⟨journal, hjournal, rfl⟩ := h
  have inv : JournalInvariant state.submission.val.intent currency final journal := by
    refine foldlM_invariant₂ (JournalInvariant state.submission.val.intent currency) ?_
      ⟨rfl, fun _ => rfl⟩ hfinal hjournal
    intro _ _ _ _ _ _ hinv hs hj
    exact journalEvent_invariant hs hj hinv
  rw [inv.effect, hexecutions, sum_effect_executionProjections, inv.heads]

/-- The entries of an order are named after its execution events, each at most once. -/
theorem executionEntries_references (h : executionEntries H state currency = .ok entries) :
    (entries.map (·.val.referenceId)).Sublist (state.executionEvents.map (·.val.eventId)) ∧
      ∀ e ∈ entries, e.val.kind ≠ .cashFlow := by
  simp only [executionEntries, eq_ok] at h
  obtain ⟨journal, hjournal, rfl⟩ := h
  refine foldlM_invariant_done (fun done journal =>
    (journal.entries.map (·.val.referenceId)).Sublist
    ((done.filter (·.val.kind.report?.isSome)).map (·.val.eventId)) ∧
      ∀ e ∈ journal.entries, e.val.kind ≠ .cashFlow) ?_ (by simp) hjournal
  rintro done event journal journal' - ⟨hsub, hkind⟩ hstep
  cases hreport : event.val.kind.report? with
  | none =>
    rw [journalEvent, hreport, pure_eq_ok] at hstep
    simp only [List.filter_append, List.filter_singleton, hreport]
    simpa [← hstep] using ⟨hsub, hkind⟩
  | some report =>
    obtain ⟨_, _, _, posted, -, -, hposted, rfl, -⟩ := journalEvent_spec hreport hstep
    simp only [List.filter_append, List.filter_singleton, hreport, List.map_append]
    rcases executionEntry_cases hposted with ⟨-, rfl⟩ | ⟨entry, rfl, hentry⟩
    · simpa using ⟨hsub.trans (List.sublist_append_left _ _), hkind⟩
    · obtain ⟨hentryKind, hreference, -⟩ := ledgerEntry_spec hentry
      refine ⟨hsub.append (by simp [hreference]), fun e he => ?_⟩
      rcases List.mem_append.1 he with he | he
      · exact hkind e he
      · rw [List.mem_singleton.1 he, hentryKind]
        cases event.val.kind <;> simp [BrokerOrderEventKind.entryKind]

/-! ## The effect of the ledger -/

theorem requireCanonicalOrder_spec (h : requireCanonicalOrder H message state = .ok u) :
    state.IsCanonical H.toOrderHashes := by
  simp only [requireCanonicalOrder, Py.eq_ok] at h
  obtain ⟨canonical, hcanonical, rfl⟩ := h
  exact hcanonical

variable {orders : List CanonicalOrderState}

theorem admitOrder_spec (h : orders.foldlM (admitOrder H) .empty = .ok index) :
    Dict.unique (·.submission.val.orderId) () orders = .ok index ∧
      ∀ state ∈ orders, state.IsCanonical H.toOrderHashes := by
  constructor
  · refine foldlM_simulation id (fun s state s' _ hstep => ?_) h
    simp only [admitOrder, eq_ok] at hstep
    obtain ⟨-, -, hunique⟩ := hstep
    exact Dict.uniqueStep_eq_ok.2 (Dict.uniqueStep_eq_ok.1 hunique)
  · refine foldlM_invariant_done (fun done _ => ∀ state ∈ done, state.IsCanonical H.toOrderHashes)
      ?_ (by simp) h
    intro done state index index' _ hdone hstep other hother
    simp only [admitOrder, eq_ok] at hstep
    obtain ⟨_, hcanonical, -⟩ := hstep
    rcases List.mem_append.1 hother with hmem | hmem
    · exact hdone other hmem
    · rw [List.mem_singleton.1 hmem]
      exact requireCanonicalOrder_spec hcanonical

variable {flows : List LedgerCashFlow}

theorem flowEntries_spec (h : flows.mapM (cashFlowEntry H) = .ok entries) :
    entries.map (·.val.referenceId) = flows.map (·.val.cashFlowId) ∧
      (∀ e ∈ entries, e.val.kind = .cashFlow) ∧
      ∀ k, entriesEffect entries k = (flows.map fun f => f.val.effect k).sum := by
  have hrel := mapM_eq_ok.1 h
  refine ⟨?_, ?_, fun k => sum_map_of_mapM (fun _ _ he => (cashFlowEntry_spec he).2.2 k) h⟩
  · clear h
    induction hrel with
    | nil => rfl
    | cons he _ ih => rw [List.map_cons, List.map_cons, (cashFlowEntry_spec he).2.1, ih]
  · clear h
    induction hrel with
    | nil => simp
    | cons he _ ih => exact List.forall_mem_cons.2 ⟨(cashFlowEntry_spec he).1, ih⟩

/-- The effect of an order: the effect of its current executions. -/
def CanonicalOrderState.effect (currency : Str) (state : CanonicalOrderState)
    (k : BalanceKey) : ℚ × ℚ :=
  (state.executions.map fun x => x.effect state.submission.val.intent currency k).sum

/-- What posting some orders leaves behind: the index holds their execution events, and the new
entries are named after those events and have the orders' effect. -/
structure Posted (currency : Str) (flowEntries : List CanonicalLedgerEntry)
    (orders : List CanonicalOrderState)
    (acc : Dict Str BrokerOrderEvent × List CanonicalLedgerEntry)
    (posted : List CanonicalLedgerEntry) : Prop where
  index : Dict.unique (·.val.eventId) () (orders.flatMap (·.executionEvents)) = .ok acc.1
  entries : acc.2 = flowEntries ++ posted
  references : (posted.map (·.val.referenceId)).Sublist
    ((orders.flatMap (·.executionEvents)).map (·.val.eventId))
  kinds : ∀ e ∈ posted, e.val.kind ≠ .cashFlow
  effect : ∀ k, entriesEffect posted k = (orders.map fun state => state.effect currency k).sum

/-- Posting the orders one by one posts each order's executions. -/
theorem foldlM_postOrder_spec (hcanonical : ∀ state ∈ orders, state.IsCanonical H.toOrderHashes)
    (h : orders.foldlM (postOrder H currency) (.empty, flowEntries) = .ok acc) :
    ∃ posted, Posted currency flowEntries orders acc posted := by
  refine foldlM_invariant_done
    (fun done acc => ∃ posted, Posted currency flowEntries done acc posted) ?_ ?_ h
  · intro done state acc acc' hstate ⟨posted, hposted⟩ hstep
    simp only [postOrder, eq_ok] at hstep
    obtain ⟨events, hevents, own, hown, rfl⟩ := hstep
    obtain ⟨hownrefs, hownkinds⟩ := executionEntries_references hown
    refine ⟨posted ++ own, ?_, by simp [hposted.entries], ?_, fun e he => ?_, fun k => ?_⟩
    · rw [Dict.unique, List.flatMap_append, List.foldlM_append, bind_eq_ok]
      exact ⟨acc.1, hposted.index, by simpa using Dict.foldlM_uniqueStep_congr hevents⟩
    · simpa using hposted.references.append hownrefs
    · exact (List.mem_append.1 he).elim (hposted.kinds e) (hownkinds e)
    · rw [entriesEffect_append, hposted.effect,
        executionEntries_effect (hcanonical state hstate) hown]
      simp [CanonicalOrderState.effect]
  · exact ⟨[], rfl, by simp, by simp, by simp, by simp⟩

/-- The execution events of different orders are different. -/
theorem nodup_executionEvents (hnodup : (orders.map (·.submission.val.orderId)).Nodup)
    (hcanonical : ∀ state ∈ orders, state.IsCanonical H.toOrderHashes) :
    (orders.flatMap (·.executionEvents)).Nodup := by
  have hevents (state) (hstate : state ∈ orders) : state.executionEvents.Nodup := by
    obtain ⟨-, -, -, hids, -⟩ := reduceOrderLifecycle_spec (hcanonical state hstate)
    exact (List.Nodup.of_map _ hids).filter _
  rw [List.nodup_flatMap]
  refine ⟨hevents, ?_⟩
  rw [List.Nodup, List.pairwise_map] at hnodup
  refine hnodup.imp_of_mem fun {a b} ha hb hne event hea heb => hne ?_
  obtain ⟨-, -, -, -, _, hfa, -⟩ := reduceOrderLifecycle_spec (hcanonical a ha)
  obtain ⟨-, -, -, -, _, hfb, -⟩ := reduceOrderLifecycle_spec (hcanonical b hb)
  rw [← orderId_of_foldlM hfa (List.mem_filter.1 hea).1,
    orderId_of_foldlM hfb (List.mem_filter.1 heb).1]

/-- Entries with different names, or one of a cash flow and one of an execution, are different. -/
theorem nodup_entries (hflows : (flows.map (·.val.cashFlowId)).Nodup)
    (hrefs : flowEntries.map (·.val.referenceId) = flows.map (·.val.cashFlowId))
    (hkinds : ∀ e ∈ flowEntries, e.val.kind = .cashFlow)
    (hposted : (posted.map (·.val.referenceId)).Nodup)
    (hpostedKinds : ∀ e ∈ posted, e.val.kind ≠ .cashFlow) : (flowEntries ++ posted).Nodup := by
  refine List.nodup_append.2 ⟨List.Nodup.of_map _ (hrefs ▸ hflows), hposted.of_map, ?_⟩
  rintro a ha b hb rfl
  exact hpostedKinds a hb (hkinds a ha)

/-- **How an execution ledger came about**: the distinct orders are posted one after another onto
the entries of the distinct flows, and collecting the entries by identity drops none. -/
theorem reduceExecutionLedger_posted
    (h : reduceExecutionLedger H orders flows currency = .ok ledger) :
    ∃ uniqueOrders flowIndex flowEntries acc,
      Dict.unique (·.submission.val.orderId) () orders = .ok uniqueOrders ∧
      (∀ state ∈ orders, state.IsCanonical H.toOrderHashes) ∧
      Dict.unique (·.val.cashFlowId) () flows = .ok flowIndex ∧
      flowIndex.values.mapM (cashFlowEntry H) = .ok flowEntries ∧
      (sortOn (·.submission.val.orderId) uniqueOrders.values).foldlM (postOrder H currency)
        (.empty, flowEntries) = .ok acc ∧
      (∃ posted, acc.2 = flowEntries ++ posted ∧ (posted.map (·.val.referenceId)).Nodup) ∧
      ledger.entries = sortOn (·.val.order) acc.2 ∧
      projectBalances ledger.entries = .ok ledger.balances := by
  simp only [reduceExecutionLedger, eq_ok] at h
  obtain ⟨-, -, uniqueOrders, horders, index, hflows, flowEntries, hflowEntries, acc, hacc,
    entryIds, hentryIds, balances, hbalances, rfl⟩ := h
  obtain ⟨hunique, hcanonical⟩ := admitOrder_spec horders
  have hflowIds := (Dict.unique_of_unique₂ hflows).1
  obtain ⟨hrefs, hkinds, -⟩ := flowEntries_spec hflowEntries
  have hsorted : ∀ state ∈ sortOn (·.submission.val.orderId) uniqueOrders.values,
      state.IsCanonical H.toOrderHashes := fun state hstate =>
    hcanonical state ((Dict.mem_values_of_unique hunique).1 (mem_sortOn.1 hstate))
  obtain ⟨posted, hposted⟩ := foldlM_postOrder_spec hsorted hacc
  have hevents := nodup_executionEvents (H := H)
    (((sortOn_perm _ _).map _).nodup_iff.2 (Dict.nodup_keys_of_unique hunique)) hsorted
  have hids : (posted.map (·.val.referenceId)).Nodup := by
    refine hposted.references.nodup (hevents.map_on fun a ha b hb => ?_)
    exact Dict.eq_of_unique hposted.index ha hb
  have hnodup : acc.2.Nodup := hposted.entries ▸
    nodup_entries (Dict.nodup_keys_of_unique hflowIds) hrefs hkinds hids hposted.kinds
  exact ⟨uniqueOrders, index, flowEntries, acc, hunique, hcanonical, hflowIds, hflowEntries, hacc,
    ⟨posted, hposted.entries, hids⟩, Dict.values_eq_of_unique hentryIds (nodup_sortOn.2 hnodup),
      hbalances⟩

/-- **The ledger in closed form**: its entries have the effect of every distinct cash flow and of
every current execution of every distinct order, and nothing else. -/
theorem reduceExecutionLedger_spec (h : reduceExecutionLedger H orders flows currency =
    .ok ledger) :
    (∀ state ∈ orders, state.IsCanonical H.toOrderHashes) ∧
      (∀ k, balanceAt ledger.balances k = entriesEffect ledger.entries k) ∧
      ∀ k, entriesEffect ledger.entries k = (flows.dedup.map fun f => f.val.effect k).sum +
        (orders.dedup.map fun state => state.effect currency k).sum := by
  obtain ⟨uniqueOrders, flowIndex, flowEntries, acc, horders, hcanonical, hflows, hflowEntries,
    hacc, -, hentries, hbalances⟩ := reduceExecutionLedger_posted h
  obtain ⟨posted, hposted⟩ := foldlM_postOrder_spec (fun state hstate => hcanonical state
    ((Dict.mem_values_of_unique horders).1 (mem_sortOn.1 hstate))) hacc
  refine ⟨hcanonical, fun k => (projectBalances_spec hbalances).2 k, fun k => ?_⟩
  rw [hentries, entriesEffect_perm (sortOn_perm _ _), hposted.entries, entriesEffect_append,
    (flowEntries_spec hflowEntries).2.2, hposted.effect, sum_map_sortOn]
  congr 1
  · exact ((Dict.values_perm_dedup hflows).map _).sum_eq
  · exact ((Dict.values_perm_dedup horders).map _).sum_eq

end AutoQuantTrader
