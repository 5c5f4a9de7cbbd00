import AutoQuantTrader.SettlementLaws

/-!
# Sealing the settlement ledger

The reducer derives obligations from the orders and their facts; sealing derives them a second time
from the entries of the trade-date ledger.  The two derivations are connected entry by entry:

* `Records` relates an entry of the trade-date ledger to the change in cash it stands for, and
  `recorded_of_reduce` lines the two lists up;
* `checkObligation_settled` says that checking an obligation makes the entries that settling it
made;
* `sealing_agrees` — the second derivation always comes to the same entries and balances, and
sealing can only fail on available cash, the one amount that is not a balance.
-/

namespace AutoQuantTrader

open Result Sorting

/-! ## Entries and changes in cash -/

/-- The balance of cash in a currency. -/
def cashKey (currency : Str) : BalanceKey := ⟨.cash currency, currency, none⟩

/-- The cash an entry moves, in exact arithmetic. -/
def entryCash (currency : Str) (entry : CanonicalLedgerEntry) : ℚ :=
  (postingsEffect entry.val.postings (cashKey currency)).1

/-- The entry of the trade-date ledger that records a change in cash. -/
structure Records (H : LedgerHashes) (currency : Str) (entry : CanonicalLedgerEntry)
    (delta : ExecutionCashDelta) : Prop where
  kind : entry.val.kind ∈ [LedgerEntryKind.execution, .executionCorrection]
  reference : entry.val.referenceId = delta.event.val.eventId
  source : entry.val.sourceSha256 = H.brokerEvent delta.event
  effectiveAt : entry.val.effectiveAt = delta.event.val.occurredAt
  recordedAt : entry.val.recordedAt = delta.event.val.receivedAt
  cash : entryCash currency entry = delta.cashDelta
  moves : delta.cashDelta ≠ 0

variable {entries : List CanonicalLedgerEntry} {orders : List CanonicalOrderState}
  {journal : ExecutionJournal}

section records

variable {H : LedgerHashes} {currency : Str}

theorem effect_cashKey (instrumentId : Str) (x : ExecutionEconomics) :
    (x.effect instrumentId currency (cashKey currency)).1 = x.cash := by
  simp [ExecutionEconomics.effect, change, cashKey]

variable {event : BrokerOrderEvent}

/-- The economics and the cash that an event replaces agree. -/
theorem previousCash_eq (h : previousEconomics side predecessors event = .ok previous)
    (h' : previousCash side predecessors event = .ok cash) : previous.cash = cash := by
  unfold previousEconomics at h
  unfold previousCash at h'
  cases hkind : event.val.kind <;> simp only [hkind, pure_eq_ok] at h h'
  case executionCorrection report supersedes =>
    simp only [eq_ok] at h h'
    obtain ⟨predecessor, hpredecessor, old, hold, h⟩ := h
    obtain ⟨predecessor', hpredecessor', old', hold', h'⟩ := h'
    have heq : predecessor' = predecessor :=
      Option.some.inj (hpredecessor'.symm.trans hpredecessor)
    subst heq
    have heq : old' = old := Option.some.inj (hold'.symm.trans hold)
    subst heq
    rw [executionEconomics_eq h, eventCash_eq h']
  all_goals rw [← h, ← h']

/-- The entry of an execution that moves cash. -/
def movesCash (currency : Str) (entry : CanonicalLedgerEntry) : Prop :=
  entry.val.kind ∈ [LedgerEntryKind.execution, .executionCorrection] ∧ entryCash currency entry ≠ 0

instance (currency : Str) : DecidablePred (movesCash currency) := fun _ =>
  inferInstanceAs (Decidable (_ ∧ _))

/-- The journal of an order and its changes in cash, after the same events. -/
structure JournalRecords (H : LedgerHashes) (currency : Str) (journal : ExecutionJournal)
    (acc : CashDeltaState) (earlier : List ExecutionCashDelta) : Prop where
  predecessors : acc.predecessors = journal.predecessors
  records : ∃ own, acc.deltas = earlier ++ own ∧
    List.Forall₂ (Records H currency) (journal.entries.filter (movesCash currency)) own

/-- **One event is recorded by the entry it posts**, if it moves cash at all. -/
theorem journalRecords_step
    (hj : journalEvent H state.submission.val.intent currency journal event = .ok journal')
    (hc : collectCashDelta state acc event = .ok acc')
    (inv : JournalRecords H currency journal acc earlier) :
    JournalRecords H currency journal' acc' earlier := by
  cases hreport : event.val.kind.report? with
  | none =>
    rw [journalEvent, hreport, pure_eq_ok] at hj
    rw [collectCashDelta, hreport, pure_eq_ok] at hc
    exact hj ▸ hc ▸ inv
  | some report =>
    obtain ⟨previous, _, _, posted, hprevious, -, hposted, rfl, heffect⟩ :=
      journalEvent_spec hreport hj
    simp only [collectCashDelta, hreport, eq_ok] at hc
    obtain ⟨_, -, _, -, current, hcurrent, before, hbefore, cashDelta, hdelta, rfl⟩ := hc
    obtain ⟨own, hown, hrecords⟩ := inv.records
    rw [inv.predecessors] at hbefore
    -- what the entry moves is the change in cash that was collected
    have hcash : (entriesEffect posted (cashKey currency)).1 = cashDelta := by
      rw [heffect, Prod.fst_sub, effect_cashKey, headEffect, hreport, effect_cashKey,
        previousCash_eq hprevious hbefore, ← eventCash_eq hcurrent,
        exactDecimalSubtract_eq hdelta]
    refine ⟨by rw [inv.predecessors], ?_⟩
    by_cases hzero : cashDelta = 0
    · refine ⟨own, by simp [hzero, hown], ?_⟩
      have hnone : posted.filter (movesCash currency) = [] := by
        rcases executionEntry_cases hposted with ⟨-, rfl⟩ | ⟨entry, rfl, -⟩
        · rfl
        · rw [entriesEffect_singleton, hzero] at hcash
          simp [movesCash, entryCash, hcash]
      rw [List.filter_append, hnone, List.append_nil]
      exact hrecords
    · rcases executionEntry_cases hposted with ⟨-, rfl⟩ | ⟨entry, rfl, hentry⟩
      · exact absurd hcash.symm hzero
      · rw [entriesEffect_singleton] at hcash
        refine ⟨own ++ [⟨state.submission.val.orderId, report.executionId, event, cashDelta⟩],
          by simp [hzero, hown], ?_⟩
        rw [ledgerEntry, construct_eq_ok] at hentry
        have hkind : entry.val.kind ∈ [LedgerEntryKind.execution, .executionCorrection] := by
          rw [hentry]
          cases event.val.kind <;> simp [BrokerOrderEventKind.entryKind]
        have hmoves : movesCash currency entry := ⟨hkind, fun h => hzero (hcash.symm.trans h)⟩
        rw [List.filter_append, List.filter_cons_of_pos (by simpa using hmoves), List.filter_nil]
        refine List.rel_append hrecords (.cons ?_ .nil)
        exact ⟨hkind, by rw [hentry], by rw [hentry], by rw [hentry], by rw [hentry], hcash, hzero⟩

/-- **The entries of an order record its changes in cash**, in the same order. -/
theorem records_of_order (hentries : executionEntries H state currency = .ok entries)
    (hdeltas : collectOrderDeltas acc state = .ok acc') : ∃ own, acc'.deltas = acc.deltas ++ own ∧
      List.Forall₂ (Records H currency) (entries.filter (movesCash currency)) own := by
  simp only [executionEntries, eq_ok] at hentries
  obtain ⟨journal, hjournal, rfl⟩ := hentries
  have hinit : JournalRecords H currency ⟨.empty, []⟩ { acc with predecessors := .empty }
      acc.deltas := ⟨rfl, [], by simp, by simp⟩
  have inv : JournalRecords H currency journal acc' acc.deltas := by
    refine foldlM_invariant₂ (fun journal acc' => JournalRecords H currency journal acc' acc.deltas)
      ?_ hinit hjournal hdeltas
    intro _ _ _ _ _ _ hinv hj hc
    exact journalRecords_step hj hc hinv
  exact inv.records

/-- **The trade-date ledger records every change in cash.**  Its entries that move cash and the
changes that settle can be lined up. -/
theorem recorded_of_reduce (hledger : reduceExecutionLedger H orders flows currency = .ok ledger)
    (hdeltas : executionCashDeltas orders = .ok deltas) :
    ∃ entries recorded, entries.Perm (ledger.entries.filter (movesCash currency)) ∧
      recorded.Perm deltas ∧ List.Forall₂ (Records H currency) entries recorded ∧
      (entries.map (·.val.referenceId)).Nodup := by
  obtain ⟨uniqueOrders, _, flowEntries, acc, horders, -, -, hflowEntries, hacc,
    ⟨posted, hposted, hids⟩, hentries, -⟩ := reduceExecutionLedger_posted hledger
  simp only [executionCashDeltas, eq_ok] at hdeltas
  obtain ⟨uniqueOrders', horders', cash, hcash, rfl⟩ := hdeltas
  have hsame : uniqueOrders' = uniqueOrders :=
    Except.ok.inj ((Dict.foldlM_uniqueStep_congr horders').symm.trans horders)
  subst hsame
  have hflows : flowEntries.filter (movesCash currency) = [] := by
    refine List.filter_eq_nil_iff.2 fun e he => ?_
    simp [movesCash, (flowEntries_spec hflowEntries).2.1 e he]
  have hrecords : List.Forall₂ (Records H currency) (acc.2.filter (movesCash currency))
      cash.deltas := by
    refine foldlM_invariant₂ (fun acc cash => List.Forall₂ (Records H currency)
      (acc.2.filter (movesCash currency)) cash.deltas) ?_ (by simp [hflows]) hacc hcash
    intro acc cash state acc' cash' _ hinv hpost hcollect
    simp only [postOrder, eq_ok] at hpost
    obtain ⟨_, -, own, hown, rfl⟩ := hpost
    obtain ⟨deltas, hdeltas, hrecords⟩ := records_of_order hown hcollect
    rw [hdeltas, List.filter_append]
    exact List.rel_append hinv hrecords
  refine ⟨_, _, ?_, (sortOn_perm _ _).symm, hrecords, ?_⟩
  · rw [hentries]
    exact (sortOn_perm _ _).symm.filter _
  · rw [hposted, List.filter_append, hflows, List.nil_append]
    exact (List.filter_sublist.map _).nodup hids

end records

/-! ## Reading the trade-date ledger -/

variable {entry : CanonicalLedgerEntry}

section reading

variable {currency : Str}

/-- Whatever was projected could be read posting by posting. -/
theorem subtract_of_projectBalances (h : projectBalances entries = .ok balances) :
    ∀ e ∈ entries, ∀ p ∈ e.val.postings,
      ∃ cash, exactDecimalSubtract p.val.debit p.val.credit = .ok cash := by
  simp only [projectBalances, eq_ok] at h
  obtain ⟨projected, hprojected, -⟩ := h
  have hall : ∀ p ∈ entries.flatMap (·.val.postings),
      ∃ cash, exactDecimalSubtract p.val.debit p.val.credit = .ok cash := by
    refine foldlM_invariant_done (fun done _ => ∀ p ∈ done,
      ∃ cash, exactDecimalSubtract p.val.debit p.val.credit = .ok cash) ?_ (by simp) hprojected
    intro done posting projected projected' _ hdone hstep p hp
    simp only [projectPosting, eq_ok] at hstep
    obtain ⟨cash, hcash, -⟩ := hstep
    rcases List.mem_append.1 hp with hp | hp
    · exact hdone p hp
    · exact ⟨cash, List.mem_singleton.1 hp ▸ hcash⟩
  intro e he p hp
  exact hall p (List.mem_flatMap.2 ⟨e, he, hp⟩)

theorem entryCashDelta_eq_ok (currency : Str)
    (h : ∀ p ∈ entry.val.postings, ∃ cash, exactDecimalSubtract p.val.debit p.val.credit =
      .ok cash) : entryCashDelta currency entry = .ok (entryCash currency entry) := by
  have hkeys : (entry.val.postings.map (·.val.key)).Nodup := by
    have hpasses := entry.passes
    simp only [CanonicalLedgerEntryFields.postInit, Py.eq_ok] at hpasses
    obtain ⟨_, -, _, -, _, -, _, -, _, -, _, hkeys, -⟩ := hpasses
    exact hkeys
  have heffect : postingsEffect entry.val.postings (cashKey currency) =
      ((entry.val.postings.find? (·.val.key = cashKey currency)).map fun p =>
        (p.val.debit - p.val.credit, p.val.unitsDelta)).getD 0 := by
    rw [← Keyed.sum_map_find? hkeys (cashKey currency)]
    rfl
  rw [entryCash, heffect]
  unfold entryCashDelta
  cases hfind : entry.val.postings.find? (·.val.key = cashKey currency) with
  | none =>
    rw [cashKey] at hfind
    simp only [hfind, Option.map_none, Option.getD_none]
    rfl
  | some p =>
    obtain ⟨cash, hcash⟩ := h p (List.mem_of_find?_eq_some hfind)
    rw [cashKey] at hfind
    simp only [hfind, hcash, Option.map_some, Option.getD_some, exactDecimalSubtract_eq hcash]

/-- What the second derivation reads off an entry. -/
def cashItem (currency : Str) (entry : CanonicalLedgerEntry) : Str × CanonicalLedgerEntry × ℚ :=
  (entry.val.referenceId, entry, entryCash currency entry)

/-- **The second derivation reads exactly the entries that move cash.** -/
theorem executionCashEntries_eq_ok
    (hbalances : projectBalances ledger.entries = .ok ledger.balances)
    (hnodup : ((ledger.entries.filter (movesCash currency)).map (·.val.referenceId)).Nodup) :
    ∃ d, executionCashEntries ledger currency = .ok d ∧
      d.entries = (ledger.entries.filter (movesCash currency)).map (cashItem currency) := by
  refine foldlM_total (fun done (d : Dict Str (CanonicalLedgerEntry × ℚ)) =>
    d.entries = (done.filter (movesCash currency)).map (cashItem currency)) ?_ rfl
  intro done entry rest d hentries hd
  have hentry : entry ∈ ledger.entries := by simp [← hentries]
  have hcash := entryCashDelta_eq_ok currency
    (subtract_of_projectBalances hbalances entry hentry)
  unfold collectCashEntry
  by_cases hmoves : movesCash currency entry
  · have hfresh : entry.val.referenceId ∉ d.keys := by
      rw [← hentries, List.filter_append, List.filter_cons_of_pos (by simpa using hmoves),
        List.map_append, List.nodup_append] at hnodup
      rw [Dict.keys, hd, List.map_map]
      intro hmem
      exact hnodup.2.2 _ hmem _ (by simp) rfl
    refine ⟨d.set entry.val.referenceId (entry, entryCash currency entry), ?_, ?_⟩
    · rw [if_neg (not_not.2 hmoves.1)]
      simp [hcash, hmoves.2, Dict.get?_eq_none.2 hfresh]
    · rw [Dict.entries_set_of_not_mem _ hfresh, hd, List.filter_append,
        List.filter_cons_of_pos (by simpa using hmoves), List.filter_nil, List.map_append]
      rfl
  · refine ⟨d, ?_, ?_⟩
    · split
      · rfl
      · next hkind =>
        have hzero : entryCash currency entry = 0 := by
          by_contra hne
          exact hmoves ⟨not_not.1 hkind, hne⟩
        simp [hcash, hzero]
    · rw [hd, List.filter_append, List.filter_cons_of_neg (by simpa using hmoves), List.filter_nil,
        List.append_nil]

end reading

/-! ## Checking the obligations -/

variable {item : List CanonicalLedgerEntry × SettlementObligation} {acc : ObligationState}

section checking

/-- The state of the checks after one more obligation. -/
def ObligationState.record (acc : ObligationState)
    (item : List CanonicalLedgerEntry × SettlementObligation) : ObligationState where
  instructionIds := item.2.val.instruction.val.instructionId :: acc.instructionIds
  confirmationIds :=
    (item.2.val.confirmation.map (·.val.confirmationId)).toList ++ acc.confirmationIds
  entries := acc.entries ++ item.1

/-- **Checking an obligation makes the entries that settling it made.** -/
theorem checkObligation_settled {obligations : Dict Str SettlementObligation}
    (hevents : Dict.unique (·.val.executionEventId) () instructions = .ok byEvent)
    (hanswers : Dict.unique (·.val.instructionId) () confirmations = .ok byInstruction)
    (hrecords : Records H.toLedgerHashes currency entry delta)
    (hitem : settleDelta H currency byEvent byInstruction delta = .ok item)
    (hobligation : obligations.get? delta.event.val.eventId = some item.2)
    (hinstruction : item.2.val.instruction.val.instructionId ∉ acc.instructionIds)
    (hconfirmation : ∀ c ∈ item.2.val.confirmation, c.val.confirmationId ∉ acc.confirmationIds) :
    checkObligation H currency obligations acc (cashItem currency entry) =
      .ok (acc.record item) := by
  simp only [settleDelta, Py.eq_ok, not_lt] at hitem
  obtain ⟨instruction, hget, _, hsource, _, hcontractual, _, hrecorded, reclassified, hreclassified,
    confirmed, hconfirmed, obligation, hfields, rfl⟩ := hitem
  obtain ⟨-, hevent⟩ := (Dict.get?_of_unique hevents _ _).1 hget
  have hitemCash : cashItem currency entry = (delta.event.val.eventId, entry, delta.cashDelta) := by
    rw [cashItem, hrecords.reference, hrecords.cash]
  simp only [hfields] at hinstruction hconfirmation
  simp only [checkObligation, hitemCash, Py.eq_ok, not_lt]
  refine ⟨obligation, hobligation, ⟨⟩, by rwa [hfields], ⟨⟩, by rw [hfields]; exact hevent, ⟨⟩,
    by rw [hfields, hrecords.source]; exact hsource, ⟨⟩,
    by rw [hfields, hrecords.effectiveAt]; exact hcontractual, ⟨⟩,
    by rw [hfields, hrecords.recordedAt]; exact hrecorded, ⟨⟩, by rw [hfields], ⟨⟩,
    by rw [hfields], reclassified, by rw [hfields, hrecords.effectiveAt]; exact hreclassified, ⟨⟩,
    ?_, confirmed, ?_, by rw [ObligationState.record]⟩
  · rintro ⟨hnone, hstatus⟩
    rw [status_eq, hnone] at hstatus
    exact hstatus rfl
  · rw [hfields]
    cases hc : byInstruction.get? instruction.val.instructionId with
    | none =>
      rw [hc] at hconfirmed
      exact hconfirmed
    | some c =>
      obtain ⟨-, hcid⟩ := (Dict.get?_of_unique hanswers _ _).1 hc
      rw [hc] at hconfirmed hconfirmation
      simp only [Option.toList_some, mapM_cons_eq_ok, mapM_nil_eq_ok, Py.eq_ok,
        not_lt] at hconfirmed ⊢
      obtain ⟨back, ⟨_, hdigest, _, hsettledAt, hback⟩, rest, rfl, rfl⟩ := hconfirmed
      exact ⟨back, ⟨⟨⟩, hconfirmation c rfl, ⟨⟩, hcid, ⟨⟩, hdigest, ⟨⟩, hsettledAt, ⟨⟩, rfl, hback⟩,
        [], rfl, rfl⟩

/-- The obligation that stands for an execution event. -/
def itemOf (settled : List (List CanonicalLedgerEntry × SettlementObligation)) (eventId : Str) :
    Option (List CanonicalLedgerEntry × SettlementObligation) :=
  settled.find? (·.2.val.executionEventId = eventId)

end checking

namespace Unsealed

variable {settled : List (List CanonicalLedgerEntry × SettlementObligation)}

/-- What the checks know after the events of some entries. -/
structure HasChecked (settled : List (List CanonicalLedgerEntry × SettlementObligation))
    (done : List (Str × CanonicalLedgerEntry × ℚ)) (acc : ObligationState) : Prop where
  instructionIds : ∀ id ∈ acc.instructionIds, ∃ item ∈ settled,
    item.2.val.executionEventId ∈ done.map Prod.fst ∧
      item.2.val.instruction.val.instructionId = id
  confirmationIds : ∀ id ∈ acc.confirmationIds, ∃ item ∈ settled,
    item.2.val.executionEventId ∈ done.map Prod.fst ∧
      ∃ c, item.2.val.confirmation = some c ∧ c.val.confirmationId = id
  entries : acc.entries =
    (done.map Prod.fst).flatMap fun id => ((itemOf settled id).map Prod.fst).getD []

theorem HasChecked.record {a : Str × CanonicalLedgerEntry × ℚ} (h : HasChecked settled done acc)
    (hitem : item ∈ settled) (ha : item.2.val.executionEventId = a.1)
    (hfind : itemOf settled a.1 = some item) :
    HasChecked settled (done ++ [a]) (acc.record item) := by
  have hmore (id : Str) (hid : id ∈ done.map Prod.fst) : id ∈ (done ++ [a]).map Prod.fst := by
    rw [List.map_append]
    exact List.mem_append_left _ hid
  have hlast : item.2.val.executionEventId ∈ (done ++ [a]).map Prod.fst := by simp [ha]
  refine ⟨fun id hid => ?_, fun id hid => ?_, ?_⟩
  · rcases List.mem_cons.1 hid with rfl | hid
    · exact ⟨item, hitem, hlast, rfl⟩
    · obtain ⟨other, hother, hdone, heq⟩ := h.instructionIds id hid
      exact ⟨other, hother, hmore _ hdone, heq⟩
  · rcases List.mem_append.1 hid with hid | hid
    · obtain ⟨c, hc, rfl⟩ := Option.map_eq_some_iff.1 (Option.mem_toList.1 hid)
      exact ⟨item, hitem, hlast, c, hc, rfl⟩
    · obtain ⟨other, hother, hdone, c, hc, heq⟩ := h.confirmationIds id hid
      exact ⟨other, hother, hmore _ hdone, c, hc, heq⟩
  · simp [ObligationState.record, h.entries, hfind]

variable (h : Unsealed H accountId orders flows instructions confirmations currency s deltas byEvent
  byInstruction settled)

include h

/-- The settled items stand for the changes in cash, one each. -/
theorem map_eventId : settled.map (·.2.val.executionEventId) =
    deltas.map (·.event.val.eventId) := by
  refine map_of_mapM (fun d item hitem => ?_) h.items
  obtain ⟨instruction, -, hobligation⟩ := settleDelta_obligation hitem
  rw [hobligation]
  rfl

/-- **The entries that move cash are those of the items**: as many, and each records the change its
item settles. -/
theorem exists_recorded :
    (((s.tradeDateLedger.entries.filter (movesCash currency)).map (·.val.referenceId)).Perm
        (settled.map (·.2.val.executionEventId))) ∧
      (settled.map (·.2.val.executionEventId)).Nodup ∧
      ∀ e ∈ s.tradeDateLedger.entries.filter (movesCash currency), ∃ delta item,
        Records H.toLedgerHashes currency e delta ∧ item ∈ settled ∧
        settleDelta H currency byEvent byInstruction delta = .ok item := by
  obtain ⟨entries, recorded, hentries, hrecorded, hrecords, hnodup⟩ :=
    recorded_of_reduce h.ledger h.cashDeltas
  have hreferences : entries.map (·.val.referenceId) = recorded.map (·.event.val.eventId) := by
    have hmap := hrecords.imp fun _ _ hr => hr.reference
    exact List.forall₂_eq_eq_eq.le _ _
      (List.forall₂_map_left_iff.2 (List.forall₂_map_right_iff.2 hmap))
  have hperm : ((s.tradeDateLedger.entries.filter (movesCash currency)).map
      (·.val.referenceId)).Perm (settled.map (·.2.val.executionEventId)) := by
    rw [h.map_eventId]
    exact (hentries.symm.map _).trans (hreferences ▸ hrecorded.map _)
  refine ⟨hperm, hperm.nodup_iff.1 ((hentries.map _).nodup_iff.1 hnodup), fun e he => ?_⟩
  obtain ⟨delta, hdelta, hr⟩ : ∃ delta ∈ recorded, Records H.toLedgerHashes currency e delta := by
    have hmem : e ∈ entries := hentries.mem_iff.2 he
    clear hperm hreferences hnodup hentries hrecorded
    induction hrecords with
    | nil => simp at hmem
    | cons hr _ ih =>
      rcases List.mem_cons.1 hmem with rfl | hmem
      · exact ⟨_, List.mem_cons_self, hr⟩
      · obtain ⟨delta, hdelta, hr⟩ := ih hmem
        exact ⟨delta, List.mem_cons_of_mem _ hdelta, hr⟩
  obtain ⟨item, hitem, hsettle⟩ := exists_mem_of_mapM h.items (hrecorded.mem_iff.1 hdelta)
  exact ⟨delta, item, hr, hitem, hsettle⟩

theorem mem_settled (hitem : item ∈ settled) : item.2 ∈ s.obligations := by
  rw [h.obligations, mem_sortOn]
  exact List.mem_map_of_mem hitem

/-- Items of one instruction are about one event. -/
theorem eventId_eq_of_instructionId (hitem : item ∈ settled) (hitem' : item' ∈ settled)
    (hid : item.2.val.instruction.val.instructionId = item'.2.val.instruction.val.instructionId) :
    item.2.val.executionEventId = item'.2.val.executionEventId := by
  obtain ⟨hmem, hevent, -⟩ := h.mem_obligations (h.mem_settled hitem)
  obtain ⟨hmem', hevent', -⟩ := h.mem_obligations (h.mem_settled hitem')
  rw [← hevent, ← hevent', h.instructionIds hmem hmem' hid]

theorem eventId_eq_of_confirmationId (hitem : item ∈ settled) (hitem' : item' ∈ settled)
    (hc : item.2.val.confirmation = some c) (hc' : item'.2.val.confirmation = some c')
    (hid : c.val.confirmationId =
      c'.val.confirmationId) : item.2.val.executionEventId = item'.2.val.executionEventId := by
  obtain ⟨-, -, hanswer⟩ := h.mem_obligations (h.mem_settled hitem)
  obtain ⟨-, -, hanswer'⟩ := h.mem_obligations (h.mem_settled hitem')
  obtain ⟨hmem, hinstruction⟩ := (Dict.get?_of_unique h.answers _ _).1 (hanswer.symm.trans hc)
  obtain ⟨hmem', hinstruction'⟩ := (Dict.get?_of_unique h.answers _ _).1 (hanswer'.symm.trans hc')
  refine h.eventId_eq_of_instructionId hitem hitem' ?_
  rw [← hinstruction, ← hinstruction', h.confirmationIds hmem hmem' hid]

/-- No two obligations are about one event. -/
theorem nodup_eventIds : (s.obligations.map (·.val.executionEventId)).Nodup := by
  rw [h.obligations]
  refine (((sortOn_perm _ _).map _).nodup_iff).2 ?_
  rw [List.map_map]
  exact h.exists_recorded.2.1

/-- The obligations by the event they are about. -/
theorem exists_byEvent :
    ∃ index, Dict.unique (fun o : SettlementObligation => o.val.executionEventId) () s.obligations =
      .ok index ∧ s.obligations.foldl (fun d o => d.set o.val.executionEventId o)
      .empty = index := by
  have hinj : Set.InjOn (fun o : SettlementObligation => o.val.executionEventId)
      {o | o ∈ s.obligations} := fun a ha b hb hab =>
    List.inj_on_of_nodup_map h.nodup_eventIds ha hb hab
  obtain ⟨index, hindex⟩ := Dict.exists_unique_iff.2 hinj
  exact ⟨index, hindex, Dict.foldl_set_of_unique hindex⟩

/-- Checking goes through every entry. -/
theorem exists_checked
    (hindex : Dict.unique (fun o : SettlementObligation => o.val.executionEventId) ()
      s.obligations = .ok index) :
    ∃ acc, ((s.tradeDateLedger.entries.filter (movesCash currency)).map
        (cashItem currency)).foldlM (checkObligation H currency index) ⟨[], [], []⟩ = .ok acc ∧
      HasChecked settled ((s.tradeDateLedger.entries.filter (movesCash currency)).map
        (cashItem currency)) acc := by
  obtain ⟨hperm, hnodup, hrecorded⟩ := h.exists_recorded
  refine foldlM_total (HasChecked settled) ?_ ⟨by simp, by simp, rfl⟩
  intro done a rest acc hdone hacc
  have hmem : a ∈ (s.tradeDateLedger.entries.filter (movesCash currency)).map
      (cashItem currency) := by
    simp [← hdone]
  obtain ⟨e, he, rfl⟩ := List.mem_map.1 hmem
  obtain ⟨delta, item, hrecords, hitem, hsettle⟩ := hrecorded e he
  have heventId : item.2.val.executionEventId = delta.event.val.eventId := by
    obtain ⟨_, -, hobligation⟩ := settleDelta_obligation hsettle
    rw [hobligation]
    rfl
  have hkey : item.2.val.executionEventId = (cashItem currency e).1 :=
    heventId.trans hrecords.reference.symm
  -- no earlier entry is about the same event
  have hfresh : item.2.val.executionEventId ∉ done.map Prod.fst := by
    have hkeys : (((s.tradeDateLedger.entries.filter (movesCash currency)).map
        (cashItem currency)).map Prod.fst).Nodup := by
      rw [List.map_map]
      exact hperm.nodup_iff.2 hnodup
    rw [← hdone, List.map_append, List.nodup_append] at hkeys
    intro hmem
    exact hkeys.2.2 _ hmem _ (by simp) hkey
  have hobligation : index.get? delta.event.val.eventId = some item.2 :=
    (Dict.get?_of_unique hindex _ _).2 ⟨h.mem_settled hitem, heventId⟩
  have hinstruction : item.2.val.instruction.val.instructionId ∉ acc.instructionIds := by
    intro hid
    obtain ⟨other, hother, hseen, heq⟩ := hacc.instructionIds _ hid
    exact hfresh (h.eventId_eq_of_instructionId hitem hother heq.symm ▸ hseen)
  have hconfirmation : ∀ c ∈ item.2.val.confirmation,
      c.val.confirmationId ∉ acc.confirmationIds := by
    intro c hc hid
    obtain ⟨other, hother, hseen, c', hc', heq⟩ := hacc.confirmationIds _ hid
    exact hfresh (h.eventId_eq_of_confirmationId hitem hother hc hc' heq.symm ▸ hseen)
  have hfind : itemOf settled (cashItem currency e).1 = some item :=
    (Keyed.find?_eq_some_iff hnodup).2 ⟨hitem, hkey⟩
  exact ⟨acc.record item, checkObligation_settled h.events h.answers hrecords hsettle hobligation
    hinstruction hconfirmation, hacc.record hitem hkey hfind⟩

/-- No two entries of the settlement ledger share a place in the order. -/
theorem order_injective :
    ∀ a ∈ settled.flatMap Prod.fst, ∀ b ∈ settled.flatMap Prod.fst,
      a.val.order = b.val.order → a = b := by
  have hderived := h.derived
  simp only [deriveSettlementAggregate, Py.eq_ok] at hderived
  obtain ⟨_, hids, -⟩ := hderived
  have hids : ((s.tradeDateLedger.entries ++ s.settlementEntries).map (·.val.entryId)).Nodup :=
    ((sortOn_perm _ _).map _).nodup_iff.1 hids
  intro a ha b hb hab
  have hentryId : a.val.entryId = b.val.entryId := by
    simp only [CanonicalLedgerEntryFields.order, toLex_inj, Prod.mk.injEq] at hab
    exact hab.2.2
  refine List.inj_on_of_nodup_map hids ?_ ?_ hentryId
  · exact List.mem_append_right _ (by rw [h.entries, mem_sortOn]; exact ha)
  · exact List.mem_append_right _ (by rw [h.entries, mem_sortOn]; exact hb)

/-- **The second derivation comes to the same entries.** -/
theorem entriesForObligations_eq :
    entriesForObligations H s.tradeDateLedger s.obligations currency = .ok s.settlementEntries := by
  obtain ⟨hperm, hnodup, -⟩ := h.exists_recorded
  obtain ⟨executions, hexecutions, hitems⟩ :=
    executionCashEntries_eq_ok (isTradeDateLedger_of_reduce h.ledger).balances
      (hperm.nodup_iff.2 hnodup)
  obtain ⟨index, hindex, hfold⟩ := h.exists_byEvent
  obtain ⟨acc, hacc, hchecked⟩ := h.exists_checked hindex
  have hkeys : executions.keys = (s.tradeDateLedger.entries.filter (movesCash currency)).map
      (·.val.referenceId) := by
    rw [Dict.keys, hitems, List.map_map]
    rfl
  have hcover (id : Str) : id ∈ index.keys ↔ id ∈ executions.keys := by
    rw [hkeys, hperm.mem_iff, Dict.mem_keys_of_unique hindex, List.mem_map]
    constructor
    · rintro ⟨o, ho, rfl⟩
      rw [h.obligations, mem_sortOn] at ho
      obtain ⟨item, hitem, rfl⟩ := List.mem_map.1 ho
      exact ⟨item, hitem, rfl⟩
    · rintro ⟨item, hitem, rfl⟩
      exact ⟨item.2, h.mem_settled hitem, rfl⟩
  have hentries : acc.entries.Perm (settled.flatMap Prod.fst) := by
    rw [hchecked.entries, List.map_map]
    refine (hperm.flatMap_right _).trans ?_
    rw [List.flatMap_map]
    refine List.Perm.of_eq (List.flatMap_congr fun item hitem => ?_)
    rw [itemOf, (Keyed.find?_eq_some_iff hnodup).2 ⟨hitem, rfl⟩]
    rfl
  simp only [entriesForObligations, Py.eq_ok]
  refine ⟨executions, hexecutions, (), ?_, acc, ?_, ?_⟩
  · rw [hfold]
    exact ⟨fun id hid => (hcover id).1 hid, fun id hid => (hcover id).2 hid⟩
  · rw [hfold, hitems]
    exact hacc
  · rw [h.entries]
    exact (sortOn_eq_of_perm hentries.symm h.order_injective).symm

end Unsealed

/-! ## Sealing -/

theorem validateTradeDateLedger_eq_ok {H : SettlementHashes}
    (h : IsTradeDateLedger H.toLedgerHashes ledger) :
    validateTradeDateLedger H ledger = .ok () := by
  simp only [validateTradeDateLedger, Py.eq_ok, forM_eq_ok]
  refine ⟨(), h.sorted, (), h.ids, (), fun e he => ?_, ledger.balances, h.balances, (), rfl, h.asOf⟩
  exact ⟨(), (h.entries e he).kind, (h.entries e he).entryId⟩

theorem isPersisted_zero : isPersisted 0 := by decide +kernel

theorem isPersisted_neg (h : isPersisted q) : isPersisted (-q) := by
  obtain ⟨hden, hrange⟩ := h
  exact ⟨by rw [neg_mul, Rat.den_neg_eq_den]; exact hden, by rw [abs_neg]; exact hrange⟩

/-- Every balance fits its column. -/
theorem isPersisted_balanceAt (balances : List LedgerBalance) (k : BalanceKey) :
    isPersisted (balanceAt balances k).1 := by
  unfold balanceAt
  cases balances.find? (·.val.key = k) with
  | none => exact isPersisted_zero
  | some b =>
    have hpasses := b.passes
    simp only [LedgerBalanceFields.postInit, eq_ok, canonicalPersistedDecimal_eq_ok] at hpasses
    obtain ⟨_, -, _, -, _, -, _, ⟨hpersisted, -⟩, -⟩ := hpasses
    exact hpersisted

theorem checkSettlementAmount_eq_ok :
    checkSettlementAmount fieldName amount amount = .ok u ↔ isPersisted amount := by
  simp [checkSettlementAmount]

section sealing

variable {H : SettlementHashes} {accountId : Str} {orders : List CanonicalOrderState}
  {flows : List LedgerCashFlow} {instructions : List ExecutionSettlementInstruction}
  {confirmations : List ExecutionSettlementConfirmation} {currency : Str}
  {s : CanonicalSettlementLedgerState}

/-- The amounts of an aggregate that are balances fit their columns. -/
theorem isPersisted_of_derived
    (h : deriveSettlementAggregate ledger entries currency = .ok derived) :
    isPersisted derived.tradeDateCash ∧ isPersisted derived.settledCash ∧
      isPersisted derived.receivables ∧ isPersisted derived.payables := by
  simp only [deriveSettlementAggregate, eq_ok] at h
  obtain ⟨_, -, balances, -, _, -, _, -, rfl⟩ := h
  exact ⟨isPersisted_balanceAt _ _, isPersisted_balanceAt _ _, isPersisted_balanceAt _ _,
    isPersisted_neg (isPersisted_balanceAt _ _)⟩

/-- **The two derivations agree**: the second one comes to the entries and the aggregate of the
first, and sealing succeeds exactly when available cash fits its column. -/
theorem sealing_agrees
    (h : unsealedSettlementLedger H accountId orders flows instructions confirmations currency =
      .ok s) :
    entriesForObligations H s.tradeDateLedger s.obligations s.currency = .ok s.settlementEntries ∧
      deriveSettlementAggregate s.tradeDateLedger s.settlementEntries s.currency =
        .ok ⟨s.balances, s.tradeDateCash, s.settledCash, s.availableCash, s.receivables, s.payables,
          s.asOf⟩ ∧
      (s.validate H = .ok () ↔ isPersisted s.availableCash) := by
  obtain ⟨deltas, byEvent, byInstruction, settled, hu⟩ := exists_unsealed h
  have hentries := hu.entriesForObligations_eq
  have hderived := hu.derived
  have hledger := validateTradeDateLedger_eq_ok (isTradeDateLedger_of_reduce hu.ledger)
  rw [← hu.currencyCode.2] at hentries hderived
  obtain ⟨htradeDate, hsettledCash, hreceivables, hpayables⟩ := isPersisted_of_derived hderived
  have hsorted : s.obligations = sortOn (·.val.order) s.obligations := by
    rw [hu.obligations]
    exact (sortOn_eq_self (sortOn_pairwise _ _)).symm
  refine ⟨hentries, hderived, ?_⟩
  simp only [CanonicalSettlementLedgerState.validate, Py.eq_ok]
  constructor
  · rintro ⟨_, -, _, -, _, -, _, -, _, -, _, -, _, -, derived, hd, _, -, _, -, _, -, _, havailable,
      -⟩
    obtain rfl := Except.ok.inj (hderived.symm.trans hd)
    exact checkSettlementAmount_eq_ok.1 havailable
  · intro havailable
    refine ⟨(), ?_, (), ?_, (), hledger, (), hsorted, (), hu.nodup_eventIds, _, hentries, (),
      rfl, _, hderived, (), rfl, (), checkSettlementAmount_eq_ok.2 htradeDate, (),
      checkSettlementAmount_eq_ok.2 hsettledCash, (), checkSettlementAmount_eq_ok.2 havailable, (),
      checkSettlementAmount_eq_ok.2 hreceivables, (), checkSettlementAmount_eq_ok.2 hpayables, rfl⟩
    · rw [hu.account.2]
      exact hu.account.1
    · rw [hu.currencyCode.2]
      exact hu.currencyCode.1

end sealing

/-! ## An aggregate that cannot be sealed -/

namespace Overdrawn

/-- One share traded in one execution. -/
def trade (name : Str) (side : Side) : Py CanonicalOrderState := do
  let intent ← plainIntent name side 1
  let submission ← createOrderSubmission .plain intent "risk" "attempt" 0
  let event ← plainEvent (plainId "event" [.text name]) submission.val.orderId "broker" 1 10
    (.execution ⟨name, 1, 1, 600000000000000000, 0⟩)
  reduceOrderLifecycle .plain submission [event] none

/-- An account is overdrawn while a large purchase and a sale of the same amount are unsettled. -/
def aggregate :
    Py (List CanonicalOrderState × LedgerCashFlow × List ExecutionSettlementInstruction ×
    CanonicalSettlementLedgerState) := do
  let bought ← trade "bought" .buy
  let sold ← trade "sold" .sell
  let flow ← createCashFlow .plain .withdrawal "USD" 600000000000000000 0 0 "wire"
  let instructions ← (bought.brokerEvents ++ sold.brokerEvents).mapM fun event =>
    createSettlementInstruction .plain event 40 40 event.val.eventId
  let s ← unsealedSettlementLedger .plain "account" [bought, sold] [flow] instructions [] "USD"
  return ([bought, sold], flow, instructions, s)

end Overdrawn

/-- The aggregate is derived, but sealing raises: settled cash less payables has too many digits. -/
theorem overdrawn_not_sealed : ∃ orders flows instructions s,
    unsealedSettlementLedger .plain "account" orders flows instructions [] "USD" = .ok s ∧
      s.availableCash = -1200000000000000000 ∧
      s.validate .plain =
        .error (.valueError "settlement available cash must fit NUMERIC(28, 10) exactly") ∧
      ∀ sealed, reduceSettlementLedger .plain "account" orders flows instructions [] "USD" ≠
        .ok sealed := by
  have h : (fun t => (t.2.2.2.availableCash, t.2.2.2.validate .plain)) <$> Overdrawn.aggregate =
      .ok (-1200000000000000000,
        .error (.valueError "settlement available cash must fit NUMERIC(28, 10) exactly")) := by
    decide +kernel
  simp only [Overdrawn.aggregate, eq_ok, Prod.mk.injEq] at h
  obtain ⟨_, ⟨bought, -, sold, -, flow, -, instructions, -, s, hs, rfl⟩, hcash, hraised⟩ := h
  refine ⟨[bought, sold], [flow], instructions, s, hs, hcash, hraised, ?_⟩
  intro sealed hsealed
  obtain ⟨hs', hvalid⟩ := reduceSettlementLedger_eq_ok.1 hsealed
  rw [hs] at hs'
  obtain rfl : s = sealed := by simpa using hs'
  rw [hraised] at hvalid
  cases hvalid

/-- A purchase that was busted and corrected again, with one of its changes in cash confirmed. -/
theorem settled_purchase_sealed : ∃ x : SettledPurchase,
    unsealedSettlementLedger .plain "account" [x.order] [x.flow] x.instructions [x.bought] "USD" =
      .ok x.before ∧
    entriesForObligations .plain x.before.tradeDateLedger x.before.obligations x.before.currency =
      .ok x.before.settlementEntries ∧
    x.before.settlementEntries.length = 4 ∧ x.before.validate .plain = .ok () := by
  have h : (fun x => (x.before.settlementEntries.length,
      decide (isPersisted x.before.availableCash))) <$> settledPurchase = .ok (4, true) := by
    decide +kernel
  simp only [settledPurchase, eq_ok, Prod.mk.injEq, decide_eq_true_eq] at h
  obtain ⟨_, ⟨⟨order, flow, _⟩, -, instructions, -, _, -, _, -, bought, -, corrected, -, before,
    hbefore, after, -, rfl⟩, hlength, hpersisted⟩ := h
  obtain ⟨hunsealed, -⟩ := reduceSettlementLedger_eq_ok.1 hbefore
  obtain ⟨hentries, -, hvalid⟩ := sealing_agrees hunsealed
  exact ⟨⟨order, flow, instructions, bought, corrected, before, after⟩, hunsealed,
    hentries, hlength, hvalid.2 hpersisted⟩

end AutoQuantTrader
