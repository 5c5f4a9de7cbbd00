import AutoQuantTrader.LedgerLaws
import AutoQuantTrader.AccountProjection
import AutoQuantTrader.Lib.Keyed

/-!
# The order of facts

Every reducer collects its facts by identity, works on them in a canonical order and never looks at
the order in which they came.  So two collections with the same members (one may repeat what the
other holds once) reduce to the same state, or are both refused.  A digest is a function of the
state, so it is the same as well.

The only place where the order of arrival could show is two entries of the corporate-action ledger
under one identity.  `SeparatesEntries` says that the digest of an entry's identity does not collide
on the facts at hand; the other ledgers check it themselves.
-/

namespace AutoQuantTrader

open Result Sorting

/-! ## The execution ledger -/

variable {index : Dict Str CanonicalOrderState} {ledger : CanonicalLedgerState} {ε : Type}
  {orders : List CanonicalOrderState}

section ledger

/-- Orders are admitted when each is canonical and none conflicts with another. -/
theorem admitOrders_eq_ok : orders.foldlM (admitOrder H) .empty = .ok index ↔
      (∀ state ∈ orders, requireCanonicalOrder H
        "ledger requires reducer-produced canonical order states" state = .ok ()) ∧
      Dict.unique (·.submission.val.orderId)
        (PyError.valueError "order identity has conflicting canonical states") orders =
          .ok index := by
  refine foldlM_guarded_eq_ok fun index state index' => ?_
  simp only [admitOrder, eq_ok]
  exact ⟨fun ⟨_, h, hindex⟩ => ⟨h, hindex⟩, fun ⟨h, hindex⟩ => ⟨(), h, hindex⟩⟩

/-- Orders in the order of their identities. -/
theorem sortOn_orderId_eq {e : ε} {index' : Dict Str CanonicalOrderState}
    (h : Dict.unique (·.submission.val.orderId) e orders = .ok index)
    (hperm : index.values.Perm index'.values) : sortOn (·.submission.val.orderId) index.values =
      sortOn (·.submission.val.orderId) index'.values := by
  refine sortOn_eq_of_perm hperm fun a ha b hb hab => ?_
  rw [Dict.mem_values_of_unique h] at ha hb
  exact Dict.eq_of_unique h ha hb hab

/-- Posting orders appends to whatever has been posted before. -/
theorem foldlM_postOrder_eq_ok {states : List CanonicalOrderState}
    {index : Dict Str BrokerOrderEvent} :
    states.foldlM (postOrder H currency) (index, entries) = .ok (index', entries') ↔
      ∃ posted, states.foldlM (postOrder H currency) (index, []) = .ok (index', posted) ∧
        entries' = entries ++ posted := by
  induction states generalizing index entries entries' with
  | nil =>
    simp only [foldlM_nil_eq_ok, Prod.mk.injEq]
    constructor
    · rintro ⟨rfl, rfl⟩
      exact ⟨[], ⟨rfl, rfl⟩, by simp⟩
    · rintro ⟨_, ⟨rfl, rfl⟩, rfl⟩
      simp
  | cons state states ih =>
    simp only [foldlM_cons_eq_ok, postOrder, eq_ok]
    constructor
    · rintro ⟨_, ⟨events, hevents, own, hown, rfl⟩, hrest⟩
      obtain ⟨posted, hposted, rfl⟩ := ih.1 hrest
      refine ⟨own ++ posted, ⟨_, ⟨events, hevents, own, hown, rfl⟩, ?_⟩, by simp⟩
      exact ih.2 ⟨posted, hposted, by simp⟩
    · rintro ⟨posted, ⟨_, ⟨events, hevents, own, hown, rfl⟩, hrest⟩, rfl⟩
      obtain ⟨rest, hposted, rfl⟩ := ih.1 hrest
      refine ⟨_, ⟨events, hevents, own, hown, rfl⟩, ih.2 ⟨rest, hposted, by simp⟩⟩

theorem entryId_eq_of_order_eq {a b : CanonicalLedgerEntry} (h : a.val.order = b.val.order) :
    a.val.entryId = b.val.entryId := by
  simp only [CanonicalLedgerEntryFields.order, EmbeddingLike.apply_eq_iff_eq, Prod.mk.injEq] at h
  exact h.2.2

/-- The execution ledger depends on the set of its facts only. -/
theorem reduceExecutionLedger_of_mem_iff (horders : ∀ o, o ∈ orders ↔ o ∈ orders')
    (hflows : ∀ f, f ∈ flows ↔ f ∈ flows')
    (h : reduceExecutionLedger H orders flows currency = .ok ledger) :
    reduceExecutionLedger H orders' flows' currency = .ok ledger := by
  simp only [reduceExecutionLedger, eq_ok] at h ⊢
  obtain ⟨_, hcurrency, index, hindex, flowIndex, hflowIndex, flowEntries, hflowEntries,
    ⟨events, entries⟩, hentries, entryIds, hentryIds, balances, hbalances, rfl⟩ := h
  obtain ⟨hcanonical, hunique⟩ := admitOrders_eq_ok.1 hindex
  obtain ⟨index', hunique', hperm, -⟩ := Dict.exists_unique_of_mem_iff hunique horders
  obtain ⟨flowIndex', hflowIndex', hflowPerm⟩ := Dict.exists_unique₂_of_mem_iff hflowIndex hflows
  obtain ⟨flowEntries', hflowEntries', hentryPerm⟩ := exists_mapM_of_perm hflowPerm hflowEntries
  obtain ⟨posted, hposted, rfl⟩ := foldlM_postOrder_eq_ok.1 hentries
  -- the entries come in another order, but their identities tell them apart
  have hsorted : sortOn (·.val.order) (flowEntries ++ posted) =
      sortOn (·.val.order) (flowEntries' ++ posted) := by
    refine sortOn_eq_of_perm (hentryPerm.append_right posted) fun a ha b hb hab => ?_
    exact Dict.eq_of_unique hentryIds (mem_sortOn.2 ha) (mem_sortOn.2 hb)
      (entryId_eq_of_order_eq hab)
  refine ⟨(), hcurrency, index', admitOrders_eq_ok.2 ⟨fun o ho => ?_, hunique'⟩, flowIndex',
    hflowIndex', flowEntries', hflowEntries', (events, flowEntries' ++ posted), ?_, entryIds, ?_,
    balances, hbalances, rfl⟩
  · exact hcanonical o ((horders o).2 ho)
  · rw [← sortOn_orderId_eq hunique hperm]
    exact foldlM_postOrder_eq_ok.2 ⟨posted, hposted, rfl⟩
  · exact hsorted ▸ hentryIds

end ledger

/-! ## The settlement ledger -/

section settlement

/-- So do the cash deltas. -/
theorem executionCashDeltas_of_mem_iff (horders : ∀ o, o ∈ orders ↔ o ∈ orders')
    (h : executionCashDeltas orders = .ok deltas) : executionCashDeltas orders' = .ok deltas := by
  simp only [executionCashDeltas, eq_ok] at h ⊢
  obtain ⟨index, hindex, acc, hacc, rfl⟩ := h
  obtain ⟨index', hindex', hperm, -⟩ := Dict.exists_unique_of_mem_iff hindex horders
  exact ⟨index', hindex', acc, sortOn_orderId_eq hindex hperm ▸ hacc, rfl⟩

/-- An obligation depends on the instructions and confirmations only by what is found among them. -/
theorem settleDelta_congr {byEvent byEvent' : Dict Str ExecutionSettlementInstruction}
    {byInstruction byInstruction' : Dict Str ExecutionSettlementConfirmation}
    (hevent : ∀ k, byEvent.get? k = byEvent'.get? k)
    (hinstruction : ∀ k, byInstruction.get? k = byInstruction'.get? k) :
    settleDelta H currency byEvent byInstruction = settleDelta H currency byEvent'
    byInstruction' := by
  funext delta
  simp only [settleDelta, hevent, hinstruction]

/-- The settlement ledger depends on the set of its facts only. -/
theorem reduceSettlementLedger_of_mem_iff
    (horders : ∀ o, o ∈ orders ↔ o ∈ orders') (hflows : ∀ f, f ∈ flows ↔ f ∈ flows')
    (hinstructions : ∀ i, i ∈ instructions ↔ i ∈ instructions')
    (hconfirmations : ∀ c, c ∈ confirmations ↔ c ∈ confirmations')
    (h : reduceSettlementLedger H accountId orders flows instructions confirmations
      currency = .ok s) :
    reduceSettlementLedger H accountId orders' flows' instructions' confirmations' currency =
      .ok s := by
  simp only [reduceSettlementLedger, unsealedSettlementLedger, Py.eq_ok] at h ⊢
  obtain ⟨_, ⟨_, haccount, _, hcurrency, ledger, hledger, deltas, hdeltas,
    ⟨byId, byEvent⟩, hbyEvent,
    ⟨byConfirmation, byInstruction⟩, hbyInstruction, _, hmissing, _, hunexpected, _,
    hknown, settled, hsettled, derived, hderived, rfl⟩, _, hvalid, rfl⟩ := h
  obtain ⟨byId', byEvent', hbyEvent', hgetId, hgetEvent⟩ :=
    Dict.exists_unique₃_of_mem_iff hbyEvent hinstructions
  obtain ⟨byConfirmation', byInstruction', hbyInstruction', -, hgetInstruction⟩ :=
    Dict.exists_unique₃_of_mem_iff hbyInstruction hconfirmations
  simp only [Dict.mem_keys_congr hgetEvent, Dict.mem_keys_congr hgetId,
    Dict.mem_keys_congr hgetInstruction] at hmissing hunexpected hknown
  rw [settleDelta_congr hgetEvent hgetInstruction] at hsettled
  exact ⟨_, ⟨(), haccount, (), hcurrency, ledger,
    reduceExecutionLedger_of_mem_iff horders hflows hledger, deltas,
    executionCashDeltas_of_mem_iff horders hdeltas, (byId', byEvent'), hbyEvent',
    (byConfirmation', byInstruction'), hbyInstruction', (), hmissing, (), hunexpected, (), hknown,
    settled, hsettled, derived, hderived, rfl⟩, (), hvalid, rfl⟩

end settlement

/-! ## Corporate actions -/

/-- A fact that makes an entry of the corporate-action ledger. -/
inductive CorporateFact where
  | split (split : StockSplitAction)
  | dividend (dividend : CashDividendAccrual)
  | payment (payment : CashDividendPayment)

/-- The identity of the entry a fact makes. -/
def CorporateFact.entryId (H : CorporateHashes) : CorporateFact → Str
  | .split s => H.canonicalId "corporate-action-entry"
      [.enum "LedgerEntryKind" LedgerEntryKind.stockSplit.value, .text s.val.splitId,
        .text (H.stockSplit s)]
  | .dividend d => H.canonicalId "corporate-action-entry"
      [.enum "LedgerEntryKind" LedgerEntryKind.cashDividendAccrual.value, .text d.val.dividendId,
        .text (H.cashDividend d)]
  | .payment p => H.canonicalId "corporate-action-entry"
      [.enum "LedgerEntryKind" LedgerEntryKind.cashDividendPayment.value, .text p.val.paymentId,
        .text (H.dividendPayment p)]

def corporateFacts (splits : List StockSplitAction) (dividends : List CashDividendAccrual)
    (payments : List CashDividendPayment) : List CorporateFact :=
  splits.map .split ++ dividends.map .dividend ++ payments.map .payment

/-- The entries of different facts have different identities. -/
def SeparatesEntries (H : CorporateHashes) (facts : List CorporateFact) : Prop :=
  Set.InjOn (CorporateFact.entryId H) {fact | fact ∈ facts}

theorem SeparatesEntries.mono (h : SeparatesEntries H facts) (hsubset : facts' ⊆ facts) :
    SeparatesEntries H facts' :=
  Set.InjOn.mono (fun _ hfact => hsubset hfact) h

section corporate

variable {H : CorporateHashes} {splits splits' : List StockSplitAction}
  {dividends dividends' : List CashDividendAccrual} {payments : List CashDividendPayment}
  {currency : Str}

theorem uniqueFacts_of_mem_iff {α : Type} [DecidableEq α] {identity sourceIdentity : α → Str}
    {values values' facts : List α} (hmem : ∀ x, x ∈ values ↔ x ∈ values')
    (h : uniqueFacts identity sourceIdentity label values = .ok facts) :
    ∃ facts', uniqueFacts identity sourceIdentity label values' = .ok facts' ∧
      facts.Perm facts' := by
  simp only [uniqueFacts, eq_ok] at h ⊢
  obtain ⟨byId, hbyId, rfl⟩ := h
  obtain ⟨byId', hbyId', hperm⟩ := Dict.exists_unique₂_of_mem_iff hbyId hmem
  exact ⟨byId'.values, ⟨byId', hbyId', rfl⟩, hperm⟩

/-! ### Entitlements -/

/-- When and on what a split takes effect. -/
def splitKey (split : StockSplitAction) : Instant × Str :=
  (split.val.effectiveAt, split.val.instrumentId)

theorem checkSplitKey_eq_ok : checkSplitKey changes done s = .ok keys ↔
      splitKey s ∉ changes ∧ splitKey s ∉ done ∧ done ++ [splitKey s] = keys := by
  simp [checkSplitKey, splitKey]

/-- Splits pass when no position changes with them and no two coincide. -/
theorem checkSplitKeys_eq_ok : splits.foldlM (checkSplitKey changes) done = .ok keys ↔
      (∀ s ∈ splits, splitKey s ∉ changes) ∧ (∀ s ∈ splits, splitKey s ∉ done) ∧
        (splits.map splitKey).Nodup ∧ done ++ splits.map splitKey = keys := by
  induction splits generalizing done with
  | nil => simp
  | cons s splits ih =>
    have hmem (t : StockSplitAction) : splitKey t ∉ done ++ [splitKey s] ↔
        splitKey t ∉ done ∧ splitKey t ≠ splitKey s := by simp
    simp only [foldlM_cons_eq_ok, checkSplitKey_eq_ok, ih, List.forall_mem_cons, List.map_cons,
      List.nodup_cons, List.mem_map, not_exists, not_and]
    constructor
    · rintro ⟨_, ⟨hs, hdone, rfl⟩, hchanges, hrest, hnodup, rfl⟩
      simp only [hmem] at hrest
      exact ⟨⟨hs, hchanges⟩, ⟨hdone, fun t ht => (hrest t ht).1⟩,
        ⟨fun t ht => (hrest t ht).2, hnodup⟩, by simp⟩
    · rintro ⟨⟨hs, hchanges⟩, ⟨hdone, hrest⟩, ⟨hnew, hnodup⟩, rfl⟩
      exact ⟨_, ⟨hs, hdone, rfl⟩, hchanges, fun t ht => (hmem t).2 ⟨hrest t ht, hnew t ht⟩,
        hnodup, by simp⟩

/-- The timeline of entitlements does not depend on the order of the facts. -/
theorem entitlementTimeline_eq (ledger : CanonicalLedgerState) (hsplits : splits.Perm splits')
    (hdividends : dividends.Perm dividends') (hsplitIds : (splits.map (·.val.splitId)).Nodup)
    (hdividendIds : (dividends.map (·.val.dividendId)).Nodup) :
    sortOn EntitlementEvent.order
        (unitDeltas ledger ++ splits.map .split ++ dividends.map .dividend) =
      sortOn EntitlementEvent.order
        (unitDeltas ledger ++ splits'.map .split ++ dividends'.map .dividend) := by
  rw [List.append_assoc, List.append_assoc]
  refine sortOn_append_congr ?_ _
  refine sortOn_eq_of_perm ((hsplits.map _).append (hdividends.map _)) fun a ha b hb hab => ?_
  rw [List.mem_append, List.mem_map, List.mem_map] at ha hb
  rcases ha with ⟨s, hs, rfl⟩ | ⟨d, hd, rfl⟩ <;> rcases hb with ⟨t, ht, rfl⟩ | ⟨f, hf, rfl⟩ <;>
    simp only [EntitlementEvent.order, EmbeddingLike.apply_eq_iff_eq, Prod.mk.injEq] at hab
  · rw [List.inj_on_of_nodup_map hsplitIds hs ht hab.2.2]
  · omega
  · omega
  · rw [List.inj_on_of_nodup_map hdividendIds hd hf hab.2.2]

/-- The causal check does not depend on the order of the actions. -/
theorem validateCausalEntitlements_of_perm (hsplits : splits.Perm splits')
    (hdividends : dividends.Perm dividends') (hsplitIds : (splits.map (·.val.splitId)).Nodup)
    (hdividendIds : (dividends.map (·.val.dividendId)).Nodup)
    (h : validateCausalEntitlements ledger splits dividends = .ok u) :
    validateCausalEntitlements ledger splits' dividends' = .ok u := by
  simp only [validateCausalEntitlements, eq_ok] at h ⊢
  obtain ⟨keys, hkeys, _, hchecks, quantities, hquantities, hu⟩ := h
  obtain ⟨hchanges, hdone, hnodup, rfl⟩ := checkSplitKeys_eq_ok.1 hkeys
  refine ⟨splits'.map splitKey,
    checkSplitKeys_eq_ok.2 ⟨fun s hs => hchanges s (hsplits.mem_iff.2 hs),
    by simp, (hsplits.map _).nodup_iff.1 hnodup, rfl⟩, (), ?_, quantities, ?_, hu⟩
  · rw [forM_eq_ok] at hchecks ⊢
    intro d hd
    have hd := hchecks d (hdividends.mem_iff.2 hd)
    simpa [checkDividendKey, (hsplits.map splitKey).mem_iff] using hd
  · rw [← entitlementTimeline_eq ledger hsplits hdividends hsplitIds hdividendIds]
    exact hquantities

/-! ### Payments -/

/-- A payment is for an accrual that is known, due and recorded. -/
def PaymentMatches (H : CorporateHashes) (dividends : List CashDividendAccrual)
    (payment : CashDividendPayment) : Prop :=
  ∃ d, dividends.find? (·.val.dividendId = payment.val.dividendId) = some d ∧
    payment.val.dividendSha256 = H.cashDividend d ∧ d.val.payableAt ≤ payment.val.paidAt ∧
      d.val.recordedAt ≤ payment.val.recordedAt

variable {index : Dict Str CashDividendPayment}

theorem matchPayments_eq_ok : payments.foldlM (matchPayment H dividends) .empty = .ok index ↔
      (∀ p ∈ payments, PaymentMatches H dividends p) ∧
        Dict.unique (·.val.dividendId) (PyError.valueError "dividend has conflicting payments")
          payments = .ok index := by
  refine foldlM_guarded_eq_ok fun index payment index' => ?_
  simp only [matchPayment, Py.eq_ok, not_lt, PaymentMatches]
  constructor
  · rintro ⟨d, hd, _, hsha, _, hpaid, _, hrecorded, hindex⟩
    exact ⟨⟨d, hd, hsha, hpaid, hrecorded⟩, hindex⟩
  · rintro ⟨⟨d, hd, hsha, hpaid, hrecorded⟩, hindex⟩
    exact ⟨d, hd, (), hsha, (), hpaid, (), hrecorded, hindex⟩

/-- Payments in another order are matched to the same dividends. -/
theorem matchPayments_of_perm (hdividends : dividends.Perm dividends')
    (hpayments : payments.Perm payments') (hids : (dividends.map (·.val.dividendId)).Nodup)
    (h : payments.foldlM (matchPayment H dividends) .empty = .ok index) :
    ∃ index', payments'.foldlM (matchPayment H dividends') .empty = .ok index' ∧
      ∀ k, index.get? k = index'.get? k := by
  obtain ⟨hmatches, hunique⟩ := matchPayments_eq_ok.1 h
  obtain ⟨index', hunique', -, hget⟩ :=
    Dict.exists_unique_of_mem_iff hunique fun _ => hpayments.mem_iff
  refine ⟨index', matchPayments_eq_ok.2 ⟨fun p hp => ?_, hunique'⟩, hget⟩
  have hp := hmatches p (hpayments.mem_iff.2 hp)
  unfold PaymentMatches at hp ⊢
  rwa [Keyed.find?_eq_of_perm hdividends hids] at hp

/-! ### Entries -/

/-- The entry a fact makes; the payment of a dividend is posted in the amount of the dividend. -/
def CorporateFact.Makes (H : CorporateHashes) (currency : Str)
    (dividends : List CashDividendAccrual) : CorporateFact → CanonicalLedgerEntry → Prop
  | .split s, entry => splitEntry H currency s = .ok entry
  | .dividend d, entry => accrualEntry H currency d = .ok entry
  | .payment p, entry => ∃ d ∈ dividends, d.val.dividendId = p.val.dividendId ∧
      paymentEntry H currency d p = .ok entry

variable {entry : CanonicalLedgerEntry}

theorem ledgerEntry_entryId
    (h : ledgerEntry canonicalId idKind kind referenceId sha effectiveAt recordedAt
      postings = .ok entry) :
    entry.val.entryId = canonicalId idKind
      [.enum "LedgerEntryKind" kind.value, .text referenceId, .text sha] := by
  rw [ledgerEntry, construct_eq_ok] at h
  rw [h]

variable {fact : CorporateFact}

theorem CorporateFact.Makes.entryId_eq (h : fact.Makes H currency dividends entry) :
    entry.val.entryId = fact.entryId H := by
  cases fact with
  | split s =>
    simp only [Makes, splitEntry, eq_ok] at h
    obtain ⟨_, -, _, -, _, -, hentry⟩ := h
    exact ledgerEntry_entryId hentry
  | dividend d =>
    simp only [Makes, accrualEntry, eq_ok] at h
    obtain ⟨_, -, _, -, _, -, _, -, hentry⟩ := h
    exact ledgerEntry_entryId hentry
  | payment p =>
    simp only [Makes, paymentEntry, eq_ok] at h
    obtain ⟨_, -, -, _, -, _, -, _, -, hentry⟩ := h
    exact ledgerEntry_entryId hentry

/-- A corporate fact makes one entry. -/
theorem CorporateFact.Makes.unique (hids : (dividends.map (·.val.dividendId)).Nodup)
    (h : fact.Makes H currency dividends entry) (h' : fact.Makes H currency dividends entry') :
    entry = entry' := by
  cases fact with
  | split s => exact Except.ok.inj (h.symm.trans h')
  | dividend d => exact Except.ok.inj (h.symm.trans h')
  | payment p =>
    obtain ⟨d, hd, hdp, hentry⟩ := h
    obtain ⟨d', hd', hdp', hentry'⟩ := h'
    obtain rfl := List.inj_on_of_nodup_map hids hd hd' (hdp.trans hdp'.symm)
    exact Except.ok.inj (hentry.symm.trans hentry')

variable {entries : List (List CanonicalLedgerEntry)} {splitEntries : List CanonicalLedgerEntry}

/-- Every entry of the corporate-action ledger is made by one of its facts. -/
theorem exists_fact_of_mem (hindex : payments.foldlM (matchPayment H dividends) .empty = .ok index)
    (hsplits : splits.mapM (splitEntry H currency) = .ok splitEntries)
    (hdividends : dividends.mapM (dividendEntries H currency index) = .ok entries)
    (he : e ∈ splitEntries ++ entries.flatten) :
    ∃ fact ∈ corporateFacts splits dividends payments, fact.Makes H currency dividends e := by
  rcases List.mem_append.1 he with he | he
  · obtain ⟨s, hs, hentry⟩ := exists_of_mem_mapM hsplits he
    exact ⟨.split s, by simp [corporateFacts, hs], hentry⟩
  · obtain ⟨es, hes, he⟩ := List.mem_flatten.1 he
    obtain ⟨d, hd, hentries⟩ := exists_of_mem_mapM hdividends hes
    simp only [dividendEntries, eq_ok] at hentries
    obtain ⟨accrual, haccrual, paid, hpaid, rfl⟩ := hentries
    rcases List.mem_cons.1 he with rfl | he
    · exact ⟨.dividend d, by simp [corporateFacts, hd], haccrual⟩
    · obtain ⟨p, hp, hentry⟩ := exists_of_mem_mapM hpaid he
      obtain ⟨hmem, hid⟩ :=
        (Dict.get?_of_unique (matchPayments_spec hindex) _ _).1 (Option.mem_toList.1 hp)
      exact ⟨.payment p, by simp [corporateFacts, hmem], d, hd, hid.symm, hentry⟩

variable {index' : Dict Str CashDividendPayment}

theorem dividendEntries_congr (h : ∀ k, index.get? k = index'.get? k) :
    dividendEntries H currency index = dividendEntries H currency index' := by
  funext dividend
  simp only [dividendEntries, h]

/-- Facts in another order make the same entries in the end. -/
theorem sortOn_entries_eq
    (hseparates : SeparatesEntries H (corporateFacts splits dividends payments))
    (hsplitPerm : splits.Perm splits') (hdividendPerm : dividends.Perm dividends')
    (hids : (dividends.map (·.val.dividendId)).Nodup)
    (hindex : payments.foldlM (matchPayment H dividends) .empty = .ok index)
    (hget : ∀ k, index.get? k = index'.get? k)
    (hsplits : splits.mapM (splitEntry H currency) = .ok splitEntries)
    (hdividends : dividends.mapM (dividendEntries H currency index) = .ok entries) :
    ∃ splitEntries' entries', splits'.mapM (splitEntry H currency) = .ok splitEntries' ∧
      dividends'.mapM (dividendEntries H currency index') = .ok entries' ∧
      sortOn (·.val.order) (splitEntries ++ entries.flatten) =
        sortOn (·.val.order) (splitEntries' ++ entries'.flatten) := by
  obtain ⟨splitEntries', hsplits', hsplitEntries⟩ := exists_mapM_of_perm hsplitPerm hsplits
  obtain ⟨entries', hdividends', hentries⟩ := exists_mapM_of_perm hdividendPerm hdividends
  refine ⟨splitEntries', entries', hsplits', dividendEntries_congr hget ▸ hdividends', ?_⟩
  refine sortOn_eq_of_perm (hsplitEntries.append hentries.flatten) fun a ha b hb hab => ?_
  obtain ⟨fact, hfact, hmakes⟩ := exists_fact_of_mem hindex hsplits hdividends ha
  obtain ⟨fact', hfact', hmakes'⟩ := exists_fact_of_mem hindex hsplits hdividends hb
  have hentryId := entryId_eq_of_order_eq hab
  rw [hmakes.entryId_eq, hmakes'.entryId_eq] at hentryId
  obtain rfl := hseparates hfact hfact' hentryId
  exact hmakes.unique hids hmakes'

/-- The corporate ledger depends on the set of its facts only. -/
theorem reduceCorporateActionLedger_of_mem_iff {base : CanonicalLedgerState}
    {ledger : CorporateActionLedgerState}
    (hseparates : SeparatesEntries H (corporateFacts splits dividends payments))
    (hsplits : ∀ s, s ∈ splits ↔ s ∈ splits') (hdividends : ∀ d, d ∈ dividends ↔ d ∈ dividends')
    (hpayments : ∀ p, p ∈ payments ↔ p ∈ payments')
    (h : reduceCorporateActionLedger H base splits dividends payments currency = .ok ledger) :
    reduceCorporateActionLedger H base splits' dividends' payments' currency = .ok ledger := by
  simp only [reduceCorporateActionLedger, Py.eq_ok] at h ⊢
  obtain ⟨_, hcurrency, _, hbase, ownSplits, hownSplits, ownDividends, hownDividends, ownPayments,
    hownPayments, _, hactions, _, hrevisions, _, hentitled, index, hindex, splitEntries,
    hsplitEntries, entries, hentries, balances, hbalances, _, horientation, rfl⟩ := h
  obtain ⟨ownSplits', hownSplits', hsplitPerm⟩ := uniqueFacts_of_mem_iff hsplits hownSplits
  obtain ⟨ownDividends', hownDividends', hdividendPerm⟩ :=
    uniqueFacts_of_mem_iff hdividends hownDividends
  obtain ⟨ownPayments', hownPayments', hpaymentPerm⟩ :=
    uniqueFacts_of_mem_iff hpayments hownPayments
  have hsplitIds := (uniqueFacts_spec hownSplits).2
  have hdividendIds := (uniqueFacts_spec hownDividends).2
  have hpaymentIds := (uniqueFacts_spec hownPayments).2
  obtain ⟨index', hindex', hget⟩ :=
    matchPayments_of_perm hdividendPerm hpaymentPerm hdividendIds hindex
  have hown : SeparatesEntries H (corporateFacts ownSplits ownDividends ownPayments) := by
    refine hseparates.mono fun fact hfact => ?_
    simpa [corporateFacts, (uniqueFacts_spec hownSplits).1.mem_iff,
      (uniqueFacts_spec hownDividends).1.mem_iff,
        (uniqueFacts_spec hownPayments).1.mem_iff] using hfact
  obtain ⟨splitEntries', entries', hsplitEntries', hentries', hsorted⟩ := sortOn_entries_eq hown
    hsplitPerm hdividendPerm hdividendIds hindex hget hsplitEntries hentries
  rw [hsorted] at hbalances
  refine ⟨(), hcurrency, (), hbase, ownSplits', hownSplits', ownDividends', hownDividends',
    ownPayments', hownPayments', (), ?_, (), ?_, (), validateCausalEntitlements_of_perm hsplitPerm
      hdividendPerm hsplitIds hdividendIds hentitled, index', hindex', splitEntries',
      hsplitEntries',
    entries', hentries', balances, hbalances, (), horientation, ?_⟩
  · exact ((hsplitPerm.map _).append (hdividendPerm.map _)).nodup_iff.1 hactions
  · exact ((hsplitPerm.map _).append (hdividendPerm.map _)).nodup_iff.1 hrevisions
  · rw [hsorted]
    -- the facts are kept in an order that ends in their identity
    congr 1
    · refine (sortOn_eq_of_perm_of_nodup hsplitPerm hsplitIds fun a b hab => ?_).symm
      simp only [EmbeddingLike.apply_eq_iff_eq, Prod.mk.injEq] at hab
      exact hab.2.2
    · refine (sortOn_eq_of_perm_of_nodup hdividendPerm hdividendIds fun a b hab => ?_).symm
      simp only [EmbeddingLike.apply_eq_iff_eq, Prod.mk.injEq] at hab
      exact hab.2.2
    · refine (sortOn_eq_of_perm_of_nodup hpaymentPerm hpaymentIds fun a b hab => ?_).symm
      simp only [EmbeddingLike.apply_eq_iff_eq, Prod.mk.injEq] at hab
      exact hab.2

end corporate

/-! ## The FIFO account -/

/-- The two collections hold the same facts, in whatever order and however often. -/
structure SameFacts (facts facts' : AccountFacts) : Prop where
  accountId : facts.accountId = facts'.accountId
  currency : facts.currency = facts'.currency
  orderStates : ∀ o, o ∈ facts.orderStates ↔ o ∈ facts'.orderStates
  cashFlows : ∀ f, f ∈ facts.cashFlows ↔ f ∈ facts'.cashFlows
  stockSplits : ∀ s, s ∈ facts.stockSplits ↔ s ∈ facts'.stockSplits
  cashDividends : ∀ d, d ∈ facts.cashDividends ↔ d ∈ facts'.cashDividends
  dividendPayments : ∀ p, p ∈ facts.dividendPayments ↔ p ∈ facts'.dividendPayments

/-- The facts of an account that make entries of the corporate-action ledger. -/
def AccountFacts.corporate (facts : AccountFacts) : List CorporateFact :=
  corporateFacts facts.stockSplits facts.cashDividends facts.dividendPayments

section account

theorem SameFacts.symm (h : SameFacts facts facts') : SameFacts facts' facts where
  accountId := h.accountId.symm
  currency := h.currency.symm
  orderStates o := (h.orderStates o).symm
  cashFlows f := (h.cashFlows f).symm
  stockSplits s := (h.stockSplits s).symm
  cashDividends d := (h.cashDividends d).symm
  dividendPayments p := (h.dividendPayments p).symm

theorem SameFacts.separates (h : SameFacts facts facts') (hH : SeparatesEntries H facts.corporate) :
    SeparatesEntries H facts'.corporate := by
  refine hH.mono fun fact hfact => ?_
  simpa [AccountFacts.corporate, corporateFacts, h.stockSplits, h.cashDividends,
    h.dividendPayments] using hfact

/-- The orders by their identity, as a later state replaces an earlier one. -/
theorem sortedOrders_eq {orders orders' : List CanonicalOrderState} {e : ε}
    (hmem : ∀ o, o ∈ orders ↔ o ∈ orders')
    (h : Dict.unique (·.submission.val.orderId) e orders = .ok index) :
    sortOn Prod.fst (orders.foldl (fun d state => d.set state.submission.val.orderId state)
        (Dict.empty : Dict Str CanonicalOrderState)).entries =
      sortOn Prod.fst (orders'.foldl (fun d state => d.set state.submission.val.orderId state)
        (Dict.empty : Dict Str CanonicalOrderState)).entries := by
  obtain ⟨index', h', -, hget⟩ := Dict.exists_unique_of_mem_iff h hmem
  rw [Dict.foldl_set_of_unique h, Dict.foldl_set_of_unique h']
  exact sortOn_eq_of_perm_of_nodup (Dict.entries_perm hget) index.nodup fun _ _ hab => hab

theorem prepareFifoEvidence_of_sameFacts (hH : SeparatesEntries H facts.corporate)
    (hsame : SameFacts facts facts') (h : prepareFifoEvidence H facts at_ = .ok evidence) :
    prepareFifoEvidence H facts' at_ = .ok evidence := by
  simp only [prepareFifoEvidence, eq_ok, hsame.accountId, hsame.currency] at h ⊢
  obtain ⟨_, haccount, _, hcurrency, ledger, hledger, corporate, hcorporate, _, htime, rfl⟩ := h
  have hledger' := reduceExecutionLedger_of_mem_iff hsame.orderStates hsame.cashFlows hledger
  have hcorporate' := reduceCorporateActionLedger_of_mem_iff hH hsame.stockSplits
    hsame.cashDividends hsame.dividendPayments hcorporate
  simp only [reduceExecutionLedger, eq_ok] at hledger
  obtain ⟨_, -, index, hindex, -⟩ := hledger
  refine ⟨(), haccount, (), hcurrency, ledger, hledger', corporate, hcorporate', (), htime, ?_⟩
  rw [sortedOrders_eq hsame.orderStates (admitOrders_eq_ok.1 hindex).2]

/-- Redelivered facts project to the same lots. -/
theorem projectUnvaluedFifoAccount_of_sameFacts (hH : SeparatesEntries H facts.corporate)
    (hsame : SameFacts facts facts') (h : projectUnvaluedFifoAccount H facts at_ = .ok account) :
    projectUnvaluedFifoAccount H facts' at_ = .ok account := by
  simp only [projectUnvaluedFifoAccount, eq_ok] at h ⊢
  obtain ⟨evidence, hevidence, haccount⟩ := h
  rw [hsame.accountId, hsame.currency] at haccount
  exact ⟨evidence, prepareFifoEvidence_of_sameFacts hH hsame hevidence, haccount⟩

/-- Redelivered facts project to the same account. -/
theorem projectFifoAccount_of_sameFacts (hH : SeparatesEntries H facts.corporate)
    (hsame : SameFacts facts facts') (h : projectFifoAccount H facts marks at_ = .ok account) :
    projectFifoAccount H facts' marks at_ = .ok account := by
  simp only [projectFifoAccount, eq_ok, hsame.accountId, hsame.currency] at h ⊢
  obtain ⟨evidence, hevidence, haccount⟩ := h
  exact ⟨evidence, prepareFifoEvidence_of_sameFacts hH hsame hevidence, haccount⟩

end account

/-! ## The order of arrival -/

/-- **The order of arrival and redelivery do not matter**: two collections of the same facts are
accepted together, and come to the same execution, settlement, corporate-action and FIFO states. -/
theorem fact_order_irrelevant (H : SettlementHashes) {facts facts' : AccountFacts}
    {instructions instructions' : List ExecutionSettlementInstruction}
    {confirmations confirmations' : List ExecutionSettlementConfirmation}
    (hH : SeparatesEntries H.toCorporateHashes facts.corporate) (hsame : SameFacts facts facts')
    (hinstructions : ∀ i, i ∈ instructions ↔ i ∈ instructions')
    (hconfirmations : ∀ c, c ∈ confirmations ↔ c ∈ confirmations') :
    (∀ ledger, reduceExecutionLedger H.toLedgerHashes facts.orderStates facts.cashFlows
        facts.currency = .ok ledger ↔
      reduceExecutionLedger H.toLedgerHashes facts'.orderStates facts'.cashFlows facts'.currency =
        .ok ledger) ∧
    (∀ s, reduceSettlementLedger H facts.accountId facts.orderStates facts.cashFlows instructions
        confirmations facts.currency = .ok s ↔
      reduceSettlementLedger H facts'.accountId facts'.orderStates facts'.cashFlows instructions'
        confirmations' facts'.currency = .ok s) ∧
    (∀ base ledger, reduceCorporateActionLedger H.toCorporateHashes base facts.stockSplits
        facts.cashDividends facts.dividendPayments facts.currency = .ok ledger ↔
      reduceCorporateActionLedger H.toCorporateHashes base facts'.stockSplits facts'.cashDividends
        facts'.dividendPayments facts'.currency = .ok ledger) ∧
    (∀ asOf account, projectUnvaluedFifoAccount H.toCorporateHashes facts asOf = .ok account ↔
      projectUnvaluedFifoAccount H.toCorporateHashes facts' asOf = .ok account) ∧
    ∀ marks valuationAt account,
      projectFifoAccount H.toCorporateHashes facts marks valuationAt = .ok account ↔
        projectFifoAccount H.toCorporateHashes facts' marks valuationAt = .ok account := by
  have hH' := hsame.separates hH
  have hback := hsame.symm
  refine ⟨fun ledger => ?_, fun s => ?_, fun base ledger => ?_, fun asOf account => ?_,
    fun marks valuationAt account => ?_⟩
  · rw [hsame.currency]
    exact ⟨reduceExecutionLedger_of_mem_iff hsame.orderStates hsame.cashFlows,
      reduceExecutionLedger_of_mem_iff hback.orderStates hback.cashFlows⟩
  · rw [hsame.currency, hsame.accountId]
    exact ⟨reduceSettlementLedger_of_mem_iff hsame.orderStates hsame.cashFlows hinstructions
        hconfirmations,
      reduceSettlementLedger_of_mem_iff hback.orderStates hback.cashFlows
        (fun i => (hinstructions i).symm) fun c => (hconfirmations c).symm⟩
  · rw [hsame.currency]
    exact ⟨reduceCorporateActionLedger_of_mem_iff hH hsame.stockSplits hsame.cashDividends
        hsame.dividendPayments,
      reduceCorporateActionLedger_of_mem_iff hH' hback.stockSplits hback.cashDividends
        hback.dividendPayments⟩
  · exact ⟨projectUnvaluedFifoAccount_of_sameFacts hH hsame,
      projectUnvaluedFifoAccount_of_sameFacts hH' hback⟩
  · exact ⟨projectFifoAccount_of_sameFacts hH hsame, projectFifoAccount_of_sameFacts hH' hback⟩

/-- The sample account after a split of its shares and the payment of its dividend. -/
def splitAndPaid : Py (AccountFacts × UnvaluedFifoAccountProjection) := do
  let facts ← sampleFacts
  let split ← construct {
    splitId := "s1"
    sourceActionId := "split"
    sourceRevisionId := "split-revision"
    sourceSha256 := "s"
    instrumentId := "i1"
    symbol := "ABC"
    numerator := 2
    denominator := 1
    entitledQuantity := 5
    effectiveAt := 8
    recordedAt := 8 }
  let dividend ← getOrThrow facts.cashDividends.head? .indexError
  let payment ← construct {
    paymentId := "p1"
    dividendId := dividend.val.dividendId
    dividendSha256 := CorporateHashes.plain.cashDividend dividend
    paidAt := 9
    recordedAt := 9
    externalReference := "paid" }
  let facts := { facts with stockSplits := [split], dividendPayments := [payment] }
  let account ← projectUnvaluedFifoAccount .plain facts 10
  return (facts, account)

/-- The facts of an account in another order and with repetitions. -/
def AccountFacts.redelivered (facts : AccountFacts) : AccountFacts :=
  { facts with
    orderStates := facts.orderStates.reverse ++ facts.orderStates
    cashFlows := facts.cashFlows.reverse
    stockSplits := facts.stockSplits ++ facts.stockSplits
    dividendPayments := facts.dividendPayments ++ facts.dividendPayments }

theorem split_and_paid_redelivered : ∃ facts account,
    projectUnvaluedFifoAccount .plain facts 10 = .ok account ∧
    projectUnvaluedFifoAccount .plain facts.redelivered 10 = .ok account ∧
    account.cash = 1823 / 2 ∧ facts.redelivered.orderStates.length = 4 ∧
    facts.redelivered.stockSplits.length = 2 := by
  have h : (fun r => (r.2.cash, r.1.redelivered.orderStates.length,
      r.1.redelivered.stockSplits.length,
      decide (r.1.corporate.map (CorporateFact.entryId .plain)).Nodup)) <$> splitAndPaid =
        .ok (1823 / 2, 4, 2, true) := by
    decide +kernel
  simp only [splitAndPaid, eq_ok, Prod.mk.injEq, decide_eq_true_eq] at h
  obtain ⟨_, ⟨sampled, -, split, -, dividend, -, payment, -, account, haccount, rfl⟩,
    hcash, horders, hsplits, hids⟩ := h
  have hsame (facts : AccountFacts) : SameFacts facts facts.redelivered :=
    ⟨rfl, rfl, by simp [AccountFacts.redelivered], by simp [AccountFacts.redelivered],
      by simp [AccountFacts.redelivered], fun _ => .rfl, by simp [AccountFacts.redelivered]⟩
  obtain ⟨-, -, -, hunvalued, -⟩ := @fact_order_irrelevant .plain _ _ [] [] [] []
    (fun a ha b hb hab => List.inj_on_of_nodup_map hids ha hb hab) (hsame _) (fun _ => .rfl)
    (fun _ => .rfl)
  exact ⟨_, account, haccount, (hunvalued 10 account).1 haccount, hcash, horders, hsplits⟩

end AutoQuantTrader
