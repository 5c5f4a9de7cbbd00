import AutoQuantTrader.AccountProjection
import AutoQuantTrader.OrderLifecycle

/-!
# Where the lots went

Every match and every open lot names the purchase it comes from.  Whatever a sale divides between
what it takes and what it leaves (`Divides`) is conserved over a timeline (`foldlM_divides`), and so
it is for the lots of one purchase alone: the weights of its fee add up to one and its basis to what
was paid.
-/

namespace AutoQuantTrader

open Result Sorting

variable {H : CorporateHashes} {accountId : Str} {events : List AccountEvent} {s s' : FifoState}
  {x : FifoExecution} {F : FifoLot → ℚ} {G : FifoRealizedMatch → ℚ}

/-! ## Conservation -/

theorem divides_feeWeight : Divides H accountId (·.feeWeight) (·.buyFeeWeight) where
  used _ lot hne := mul_div_cancel_right₀ lot.feeWeight hne
  part _ _ _ _ := add_sub_cancel _ _

theorem divides_quantity : Divides H accountId (·.quantity) (·.quantity) where
  used _ _ _ := rfl
  part _ _ _ _ := add_sub_cancel _ _

/-- The lots of one purchase. -/
theorem Divides.only (h : Divides H accountId F G) (x : FifoExecution) :
    Divides H accountId (fun lot => if lot.execution = x then F lot else 0)
      (fun m => if m.buy = x then G m else 0) where
  used sell lot hne := by
    change (if lot.execution = x then _ else _) = _
    rw [h.used sell lot hne]
  part sell lot remaining taken := by
    change (if lot.execution = x then _ else _) + (if lot.execution = x then _ else _) = _
    by_cases hx : lot.execution = x
    · simp only [if_pos hx, h.part]
    · simp only [if_neg hx, add_zero]

/-- The lot a purchase opens. -/
def FifoExecution.opening (x : FifoExecution) : FifoLot :=
    ⟨x, x.quantity, x.quantity * x.price, 1, [], []⟩

/-- What an event brings into the book. -/
def AccountEvent.brings (F : FifoLot → ℚ) : AccountEvent → ℚ
  | .execution x => if x.side = .buy ∧ 0 < x.quantity then F x.opening else 0
  | _ => 0

theorem applyExecution_divides (h : Divides H accountId F G)
    (hrun : applyExecution H accountId s x = .ok s') :
    (s'.realizedMatches.map G).sum + bookSum F s'.lots =
      (s.realizedMatches.map G).sum + bookSum F s.lots + (AccountEvent.execution x).brings F := by
  simp only [applyExecution, eq_ok] at hrun
  obtain ⟨_, -, fees, -, hrun⟩ := hrun
  cases hside : x.side with
  | buy =>
    simp only [hside, applyBuy] at hrun
    by_cases hpos : 0 < x.quantity
    · simp only [if_pos hpos, eq_ok] at hrun
      obtain ⟨basis, hbasis, rfl⟩ := hrun
      rw [exactDecimalMultiply_eq hbasis]
      simp only [bookSum_set, AccountEvent.brings, hside, hpos, and_self, if_true, sum_map_snoc]
      simp only [FifoExecution.opening]
      ring
    · simp only [if_neg hpos, pure_eq_ok] at hrun
      subst hrun
      simp [bookSum_set, AccountEvent.brings, hpos]
  | sell =>
    simp only [hside, applySell, eq_ok] at hrun
    obtain ⟨c, hc, _, -, _, -, _, -, _, -, rfl⟩ := hrun
    have hsum := consumeLots_divides h rfl hc
    simp only [List.map_nil, List.sum_nil, zero_add] at hsum
    simp only [bookSum_set, AccountEvent.brings, hside, reduceCtorEq, false_and, if_false,
      List.map_append, List.sum_append, ← hsum]
    ring

/-- **Whatever is divided is conserved** over every timeline: it is in the matches or in the
book. -/
theorem foldlM_divides (h : Divides H accountId F G)
    (hsplit : ∀ split, .split split ∈ events → ∀ lot lot', splitLot H split lot = .ok lot' →
      F lot' = F lot)
    (hrun : events.foldlM (applyAccountEvent H accountId) .initial = .ok s) :
    (s.realizedMatches.map G).sum + bookSum F s.lots = (events.map (·.brings F)).sum := by
  refine foldlM_invariant_done (fun done s => (s.realizedMatches.map G).sum + bookSum F s.lots =
    (done.map (·.brings F)).sum) ?_
    (by simp [FifoState.initial, bookSum, Dict.sumBy, Dict.empty]) hrun
  intro done event s s' hmem hsum hstep
  rw [sum_map_snoc, ← hsum]
  cases event with
  | split split =>
    simp only [applyAccountEvent, applySplit, eq_ok] at hstep
    obtain ⟨_, -, _, -, _, -, _, -, rescaled, hrescaled, _, -, _, -, rfl⟩ := hstep
    have hnone : (AccountEvent.split split).brings F = 0 := rfl
    rw [bookSum_set, sum_map_of_mapM (fun lot lot' => hsplit split hmem lot lot') hrescaled, hnone]
    ring
  | dividend dividend =>
    simp only [applyAccountEvent, applyDividend, eq_ok] at hstep
    obtain ⟨_, -, _, -, _, -, _, -, _, -, rfl⟩ := hstep
    exact (add_zero _).symm
  | execution x => exact applyExecution_divides h hstep

/-! ## Sales -/

def AccountEvent.executionId? : AccountEvent → Option Str
  | .execution x => some x.executionId
  | _ => none

/-- The share of a sale that an event makes. -/
def AccountEvent.sells (x : FifoExecution) : AccountEvent → ℚ
  | .execution y => if y = x ∧ y.side = .sell then 1 else 0
  | _ => 0

/-- What the matches of a timeline have in common with its events. -/
structure Lineage (done : List AccountEvent) (s : FifoState) : Prop where
  lots : ∀ k, ((s.lots.getD k []).map (·.execution.executionId)).Nodup
  lotIds : ∀ k, ∀ lot ∈ s.lots.getD k [],
    lot.execution.executionId ∈ done.filterMap AccountEvent.executionId?
  sells : ∀ m ∈ s.realizedMatches, m.sell.quantity ≠ 0 ∧
    m.sell.executionId ∈ done.filterMap AccountEvent.executionId?
  pairs : (s.realizedMatches.map fun m => (m.buy.executionId, m.sell.executionId)).Nodup
  sold : ∀ x, 0 < x.quantity →
    (s.realizedMatches.map fun m => if m.sell = x then m.sellFeeWeight else 0).sum =
      (done.map (·.sells x)).sum

/-- **One sale**: it is matched once with each lot it takes from, and all of it is. -/
theorem consumeLots_lineage (hx : 0 ≤ x.quantity)
    (h : consumeLots H accountId x lots ⟨x.quantity, 0, [], []⟩ = .ok c)
    (hdone : ¬ 0 < c.remaining) :
    (c.realizedMatches.map (·.buy.executionId)).Sublist (lots.map (·.execution.executionId)) ∧
      (c.lots.map (·.execution.executionId)).Sublist (lots.map (·.execution.executionId)) ∧
      (∀ m ∈ c.realizedMatches, m.sell = x ∧ x.quantity ≠ 0) ∧
      (c.realizedMatches.map (·.sellFeeWeight)).sum * x.quantity = x.quantity := by
  have hrule := consumeLots_rule
    (I := fun left remaining _ matched => matched.map (·.buy.executionId) ++
      left.map (·.execution.executionId) = lots.map (·.execution.executionId) ∧
      (∀ m ∈ matched, m.sell = x ∧ x.quantity ≠ 0) ∧
      (matched.map (·.sellFeeWeight)).sum * x.quantity + remaining = x.quantity ∧ 0 ≤ remaining)
    (Q := fun left remaining _ matched =>
      (matched.map (·.buy.executionId)).Sublist (lots.map (·.execution.executionId)) ∧
      (left.map (·.execution.executionId)).Sublist (lots.map (·.execution.executionId)) ∧
      (∀ m ∈ matched, m.sell = x ∧ x.quantity ≠ 0) ∧
      (matched.map (·.sellFeeWeight)).sum * x.quantity + remaining = x.quantity ∧ 0 ≤ remaining)
    ?_ ?_ ?_ ⟨by simp, by simp, by simp, hx⟩ rfl h
  · obtain ⟨hmatched, hleft, hsell, hsum, hremaining⟩ := hrule
    rw [le_antisymm (not_lt.1 hdone) hremaining, add_zero] at hsum
    exact ⟨hmatched, hleft, hsell, hsum⟩
  · rintro lot rest remaining _ matched ⟨hids, hsell, hsum, -⟩ - hle - hne
    refine ⟨?_, ?_, ?_, sub_nonneg.2 hle⟩
    · simp [← hids, matchOf]
    · exact forall_mem_snoc.2 ⟨hsell, rfl, hne⟩
    · simp only [sum_map_snoc, add_mul, matchOf, div_mul_cancel₀ _ hne]
      linarith
  · rintro lot rest remaining _ matched taken ⟨hids, hsell, hsum, -⟩ - - hne -
    refine ⟨?_, ?_, ?_, ?_, le_rfl⟩
    · rw [← hids, List.map_append]
      exact (List.Sublist.refl _).append (List.singleton_sublist.2 List.mem_cons_self)
    · rw [← hids]
      exact List.sublist_append_right _ _
    · exact forall_mem_snoc.2 ⟨hsell, rfl, hne⟩
    · simp only [sum_map_snoc, add_mul, matchOf, div_mul_cancel₀ _ hne]
      linarith
  · rintro left remaining _ matched ⟨hids, hsell, hsum, hpos⟩ -
    rw [← hids]
    exact ⟨List.sublist_append_left _ _, List.sublist_append_right _ _, hsell, hsum, hpos⟩

variable {done : List AccountEvent}

/-- A book of other lots, of purchases that came before. -/
theorem Lineage.set_lots (inv : Lineage done s) (event : AccountEvent) (k : Str)
    (lots : List FifoLot) (hlots : (lots.map (·.execution.executionId)).Nodup)
    (hids : ∀ lot ∈ lots, lot.execution.executionId ∈ (done ++ [event]).filterMap
      AccountEvent.executionId?) :
    (∀ j, (((s.lots.set k lots).getD j []).map (·.execution.executionId)).Nodup) ∧
      ∀ j, ∀ lot ∈ (s.lots.set k lots).getD j [], lot.execution.executionId ∈
        (done ++ [event]).filterMap AccountEvent.executionId? := by
  rw [← forall_and]
  intro j
  rw [Dict.getD, Dict.get?_set]
  split
  · exact ⟨hlots, hids⟩
  · refine ⟨inv.lots j, fun lot hlot => ?_⟩
    rw [List.filterMap_append]
    exact List.mem_append_left _ (inv.lotIds j lot hlot)

/-- A sale matches lots of earlier purchases, each at most once. -/
theorem applySell_lineage (inv : Lineage done s) (hx : 0 ≤ x.quantity) (hside : x.side = .sell)
    (hfresh : x.executionId ∉ done.filterMap AccountEvent.executionId?)
    (h : applySell H accountId s x = .ok s') : Lineage (done ++ [.execution x]) s' := by
  simp only [applySell, Py.eq_ok] at h
  obtain ⟨c, hc, _, hdone, _, -, _, -, _, -, rfl⟩ := h
  obtain ⟨hmatched, hleft, hsell, hsum⟩ := consumeLots_lineage hx hc hdone
  have hbook := inv.lots x.instrumentId
  have hids : (done ++ [AccountEvent.execution x]).filterMap AccountEvent.executionId? =
      done.filterMap AccountEvent.executionId? ++ [x.executionId] := by
    rw [List.filterMap_append]
    rfl
  obtain ⟨hlots, hlotIds⟩ := inv.set_lots (.execution x) x.instrumentId c.lots
    (hbook.sublist hleft) fun lot hlot => by
      obtain ⟨lot', hlot', heq⟩ := List.mem_map.1 (hleft.subset (List.mem_map_of_mem hlot))
      rw [hids, ← heq]
      exact List.mem_append_left _ (inv.lotIds _ lot' hlot')
  refine ⟨hlots, hlotIds, fun m hm => ?_, ?_, fun y hpos => ?_⟩
  · rw [hids]
    rcases List.mem_append.1 hm with hm | hm
    · exact (inv.sells m hm).imp_right (List.mem_append_left _)
    · rw [(hsell m hm).1]
      exact ⟨(hsell m hm).2, by simp⟩
  · -- earlier matches are of other sales, and those of this one are of different lots
    rw [List.map_append, List.nodup_append']
    refine ⟨inv.pairs, ?_, ?_⟩
    · refine List.Nodup.of_map Prod.fst ?_
      rw [List.map_map]
      exact hbook.sublist hmatched
    · intro pair hold hnew
      obtain ⟨m, hm, rfl⟩ := List.mem_map.1 hold
      obtain ⟨m', hm', heq⟩ := List.mem_map.1 hnew
      have hsame : m.sell.executionId = x.executionId := by
        rw [← (hsell m' hm').1]
        exact (Prod.mk.inj heq).2.symm
      exact hfresh (hsame ▸ (inv.sells m hm).2)
  · have hnew : (c.realizedMatches.map fun m => if m.sell = y then m.sellFeeWeight else 0).sum =
        (AccountEvent.execution x).sells y := by
      by_cases hy : x = y
      · subst hy
        have hall : (c.realizedMatches.map fun m => if m.sell = x then m.sellFeeWeight else 0) =
            c.realizedMatches.map (·.sellFeeWeight) :=
          List.map_congr_left fun m hm => if_pos (hsell m hm).1
        rw [mul_eq_right₀ hpos.ne'] at hsum
        rw [hall, hsum]
        simp [AccountEvent.sells, hside]
      · have hnone : (c.realizedMatches.map fun m => if m.sell = y then m.sellFeeWeight else 0) =
            c.realizedMatches.map fun _ => 0 :=
          List.map_congr_left fun m hm => if_neg fun h => hy ((hsell m hm).1.symm.trans h)
        rw [hnone]
        simp [AccountEvent.sells, hy]
    rw [sum_map_snoc, List.map_append, List.sum_append, inv.sold y hpos, hnew]

/-- An event that matches nothing. -/
theorem Lineage.frame (inv : Lineage done s)
    (hlots : ∀ k, ((s'.lots.getD k []).map (·.execution.executionId)).Nodup)
    (hlotIds : ∀ k, ∀ lot ∈ s'.lots.getD k [],
      lot.execution.executionId ∈ (done ++ [event]).filterMap AccountEvent.executionId?)
    (hmatches : s'.realizedMatches = s.realizedMatches) (hsells : ∀ x, event.sells x = 0) :
    Lineage (done ++ [event]) s' := by
  refine ⟨hlots, hlotIds, fun m hm => ?_, hmatches ▸ inv.pairs, fun x hx => ?_⟩
  · rw [List.filterMap_append]
    exact (inv.sells m (hmatches ▸ hm)).imp_right (List.mem_append_left _)
  · simp [hmatches, inv.sold x hx, hsells]

/-- Every account event keeps what the matches have in common. -/
theorem applyAccountEvent_lineage (inv : Lineage done s) (hevent : event.Wellformed)
    (hfresh : ∀ id ∈ event.executionId?, id ∉ done.filterMap AccountEvent.executionId?)
    (h : applyAccountEvent H accountId s event = .ok s') : Lineage (done ++ [event]) s' := by
  have hmono {id : Str} (hid : id ∈ done.filterMap AccountEvent.executionId?) :
      id ∈ (done ++ [event]).filterMap AccountEvent.executionId? := by
    rw [List.filterMap_append]
    exact List.mem_append_left _ hid
  cases event with
  | split split =>
    simp only [applyAccountEvent, applySplit, eq_ok] at h
    obtain ⟨_, -, _, -, _, -, _, -, rescaled, hrescaled, _, -, _, -, rfl⟩ := h
    have hsame : rescaled.map (·.execution.executionId) =
        (s.lots.getD split.val.instrumentId []).map (·.execution.executionId) := by
      refine map_of_mapM (fun lot lot' hlot => ?_) hrescaled
      rw [(splitLot_same hlot).1]
    obtain ⟨hlots, hlotIds⟩ := inv.set_lots (.split split) split.val.instrumentId rescaled
      (hsame ▸ inv.lots _) fun lot hlot => by
        have hid := List.mem_map_of_mem (f := fun lot : FifoLot => lot.execution.executionId) hlot
        rw [hsame] at hid
        obtain ⟨lot', hlot', heq⟩ := List.mem_map.1 hid
        exact heq ▸ hmono (inv.lotIds _ lot' hlot')
    exact inv.frame hlots hlotIds rfl fun _ => rfl
  | dividend dividend =>
    simp only [applyAccountEvent, applyDividend, eq_ok] at h
    obtain ⟨_, -, _, -, _, -, _, -, _, -, rfl⟩ := h
    exact inv.frame inv.lots (fun k lot hlot => hmono (inv.lotIds k lot hlot)) rfl fun _ => rfl
  | execution x =>
    simp only [applyAccountEvent, applyExecution, eq_ok] at h
    obtain ⟨_, -, fees, -, h⟩ := h
    have hfresh := hfresh x.executionId rfl
    cases hside : x.side with
    | sell =>
      rw [hside] at h
      refine applySell_lineage ?_ hevent hside hfresh h
      exact ⟨inv.lots, inv.lotIds, inv.sells, inv.pairs, inv.sold⟩
    | buy =>
      simp only [hside, applyBuy] at h
      have hsells (y : FifoExecution) : (AccountEvent.execution x).sells y = 0 := by
        simp [AccountEvent.sells, hside]
      have hold := inv.lots x.instrumentId
      split at h
      · simp only [eq_ok] at h
        obtain ⟨basis, -, rfl⟩ := h
        obtain ⟨hlots, hlotIds⟩ := inv.set_lots (.execution x) x.instrumentId
          (s.lots.getD x.instrumentId [] ++ [⟨x, x.quantity, basis, 1, [], []⟩])
          (by
            rw [List.map_append, List.nodup_append']
            refine ⟨hold, List.nodup_singleton _, ?_⟩
            rw [List.map_singleton, List.disjoint_singleton, List.mem_map]
            rintro ⟨lot, hlot, heq⟩
            exact hfresh (heq ▸ inv.lotIds _ lot hlot))
          (by
            exact forall_mem_snoc.2 ⟨fun lot hlot => hmono (inv.lotIds _ lot hlot),
              by simp [AccountEvent.executionId?]⟩)
        exact inv.frame hlots hlotIds rfl hsells
      · rw [pure_eq_ok] at h
        subst h
        obtain ⟨hlots, hlotIds⟩ := inv.set_lots (.execution x) x.instrumentId _ hold
          fun lot hlot => hmono (inv.lotIds _ lot hlot)
        exact inv.frame hlots hlotIds rfl hsells

/-- The matches of a whole timeline come from its executions. -/
theorem foldlM_lineage (hevents : ∀ e ∈ events, e.Wellformed)
    (hids : (events.filterMap AccountEvent.executionId?).Nodup)
    (h : events.foldlM (applyAccountEvent H accountId) .initial = .ok s) : Lineage events s := by
  refine foldlM_invariant_done (fun done s => (done.filterMap AccountEvent.executionId?).Nodup →
    Lineage done s) ?_ (fun _ => ?_) h hids
  · intro done event s s' hmem inv hstep hnodup
    rw [List.filterMap_append, List.nodup_append'] at hnodup
    refine applyAccountEvent_lineage (inv hnodup.1) (hevents event hmem)
      (fun id hid hdone => ?_) hstep
    exact hnodup.2.2 hdone (List.mem_filterMap.2 ⟨event, List.mem_singleton_self event, hid⟩)
  · exact ⟨fun _ => List.nodup_nil, fun _ _ hlot => absurd hlot List.not_mem_nil,
      by simp [FifoState.initial], List.nodup_nil, fun _ _ => rfl⟩

/-! ## The projection -/

variable {xs : List FifoExecution}

/-- The executions on the timeline have different identities. -/
theorem nodup_currentExecutions (hids : (states.map (·.submission.val.orderId)).Nodup)
    (hstates : ∀ state ∈ states, state.IsCanonical H.toOrderHashes)
    (h : currentExecutions H states = .ok xs) : (xs.map (·.executionId)).Nodup := by
  obtain ⟨⟨ys, hys, hperm⟩, howner⟩ := currentExecutions_spec h
  have hmap : ys.map (·.executionId) = (ownedExecutions states).map (·.2.executionId) := by
    refine map_of_mapM (fun item x hx => ?_) hys
    simp only [fifoExecution, eq_ok] at hx
    obtain ⟨_, -, _, -, rfl⟩ := hx
    rfl
  rw [(hperm.map _).nodup_iff, hmap, ownedExecutions, List.map_flatMap, List.nodup_flatMap]
  refine ⟨fun state hstate => ?_, ?_⟩
  · obtain ⟨-, -, -, -, final, -, hexecutions, -⟩ :=
      reduceOrderLifecycle_spec (hstates state hstate)
    rw [List.map_map, hexecutions]
    exact nodup_executionIds final.executionHeads
  · refine (List.pairwise_map.1 hids).imp_of_mem fun {a b} ha hb hne id hida hidb => ?_
    simp only [List.map_map, List.mem_map, Function.comp_apply] at hida hidb
    obtain ⟨x, hx, rfl⟩ := hida
    obtain ⟨y, hy, heq⟩ := hidb
    have hmem {state : CanonicalOrderState} {x : ExecutionProjection} (hstate : state ∈ states)
        (hx : x ∈ state.executions) : (state, x) ∈ ownedExecutions states := by
      exact List.mem_flatMap.2 ⟨state, hstate, List.mem_map_of_mem hx⟩
    exact hne (howner (a, x) (hmem ha hx) (b, y) (hmem hb hy) heq.symm)

theorem nodup_orderIds (h : prepareFifoEvidence H facts asOf = .ok evidence) :
    (evidence.canonicalStates.map (·.submission.val.orderId)).Nodup := by
  have hperm := (prepareFifoEvidence_spec h).1
  simp only [prepareFifoEvidence, reduceExecutionLedger, eq_ok] at h
  obtain ⟨_, -, _, -, ledger, ⟨_, -, index, hindex, -⟩, -⟩ := h
  have hunique := (admitOrder_spec hindex).1
  rw [(hperm.map _).nodup_iff]
  refine (List.nodup_dedup _).map_on fun a ha b hb => ?_
  exact Dict.eq_of_unique hunique (List.mem_dedup.1 ha) (List.mem_dedup.1 hb)

/-- The open lots of all positions. -/
def UnvaluedFifoAccountProjection.openLots (p : UnvaluedFifoAccountProjection) :
    List FifoOpenLotLineage := p.positions.flatMap (·.openLotLineage)

/-- The lot of the book that a line describes. -/
def FifoOpenLotLineage.toLot (line : FifoOpenLotLineage) : FifoLot :=
  ⟨line.execution, line.lot.val.quantity, line.lot.val.costBasis, line.feeWeight, line.splitIds,
    line.splitSha256s⟩

/-- Reading the positions goes through the whole book. -/
theorem sum_openLots (inv : FifoInvariant events s)
    (h : (sortOn Prod.fst s.symbols.entries).mapM (unvaluedPosition s) = .ok positions) :
    ((positions.flatMap (·.openLotLineage)).map fun line => F line.toLot).sum =
    bookSum F s.lots := by
  have hposition (item : Str × Str) (p : UnvaluedFifoPosition)
      (hp : unvaluedPosition s item = .ok p) :
      (p.openLotLineage.map fun line => F line.toLot).sum =
        ((s.lots.getD item.1 []).map F).sum := by
    simp only [unvaluedPosition, eq_ok] at hp
    obtain ⟨lineage, hlineage, rfl⟩ := hp
    refine sum_map_of_mapM (fun lot line hline => ?_) hlineage
    simp only [openLotLineage, Py.eq_ok] at hline
    obtain ⟨openLot, hopen, rfl⟩ := hline
    simp [FifoOpenLotLineage.toLot, hopen]
  rw [List.map_flatMap, List.flatMap_def, List.sum_flatten, List.map_map]
  refine (sum_map_of_mapM hposition h).trans ?_
  rw [sum_map_sortOn, bookSum,
    ← Dict.sum_getD_eq_sumBy (v := []) (f := fun l : List FifoLot => (l.map F).sum) rfl
      s.symbols.nodup inv.lotKeys, List.map_map]
  rfl

/-- An event of each execution, once: what only one execution contributes to is its contribution. -/
theorem sum_events_eq {splits : List StockSplitAction} {dividends : List CashDividendAccrual}
    (hxs : xs.Nodup) (hx : x ∈ xs) {g : AccountEvent → ℚ} (hsplit : ∀ split, g (.split split) = 0)
    (hdividend : ∀ dividend, g (.dividend dividend) = 0) (hother : ∀ y ≠ x, g (.execution y) = 0) :
    ((sortOn AccountEvent.order (splits.map AccountEvent.split ++ dividends.map .dividend ++
      xs.map .execution)).map g).sum = g (.execution x) := by
  have hcount : (xs.map fun y => g (.execution y)).sum = xs.count x • g (.execution x) :=
    List.sum_map_eq_nsmul_single x (fun y => g (.execution y)) fun y hy _ => hother y hy
  rw [List.count_eq_one_of_mem hxs hx, one_nsmul] at hcount
  rw [sum_map_sortOn]
  simp [Function.comp_def, hsplit, hdividend, hcount]

/-- **Lots are conserved by purchase**: the weights of a purchase's fee add up to one, those of a
sale's fee too, unless it was corrected to nothing and has no matches, the basis of a purchase to
what was paid and, without splits, its shares to what was bought; and a purchase is matched with a
sale at most once. -/
theorem lots_conserved_by_purchase {facts : AccountFacts} {asOf : Instant}
    {p : UnvaluedFifoAccountProjection} (h : projectUnvaluedFifoAccount H facts asOf = .ok p) :
    (∀ x ∈ p.executions, x.side = .buy → 0 < x.quantity →
      ((p.realizedMatches.filter (·.buy = x)).map (·.buyFeeWeight)).sum +
        ((p.openLots.filter (·.execution = x)).map (·.feeWeight)).sum = 1) ∧
    (∀ x ∈ p.executions, x.side = .sell → 0 < x.quantity →
      ((p.realizedMatches.filter (·.sell = x)).map (·.sellFeeWeight)).sum = 1) ∧
    (∀ x ∈ p.executions, x.side = .sell → x.quantity = 0 →
      p.realizedMatches.filter (·.sell = x) = []) ∧
    (∀ x ∈ p.executions, x.side = .buy →
      ((p.realizedMatches.filter (·.buy = x)).map (·.costBasis)).sum +
        ((p.openLots.filter (·.execution = x)).map (·.lot.val.costBasis)).sum =
        x.quantity * x.price) ∧
    (p.realizedMatches.map fun m => (m.buy.executionId, m.sell.executionId)).Nodup ∧
    (facts.stockSplits = [] → ∀ x ∈ p.executions, x.side = .buy →
      ((p.realizedMatches.filter (·.buy = x)).map (·.quantity)).sum +
        ((p.openLots.filter (·.execution = x)).map (·.lot.val.quantity)).sum = x.quantity) := by
  simp only [projectUnvaluedFifoAccount, eq_ok] at h
  obtain ⟨evidence, hevidence, h⟩ := h
  obtain ⟨-, hcanonical, -, -, -, -, -, -, hsplits⟩ := prepareFifoEvidence_spec hevidence
  simp only [reduceUnvaluedFifo, eq_ok] at h
  obtain ⟨xs, hxs, s, hs, positions, hpositions, _, -, _, -, _, -, _, -, _, -, _, -, rfl⟩ := h
  have hids := nodup_currentExecutions (nodup_orderIds hevidence) hcanonical hxs
  have hbounds {x : FifoExecution} (hx : x ∈ xs) := currentExecutions_bounds hcanonical hxs hx
  generalize hevents : sortOn AccountEvent.order _ = events at hs
  have hwellformed : ∀ e ∈ events, e.Wellformed := by
    intro e he
    simp only [← hevents, mem_sortOn, List.mem_append, List.mem_map] at he
    rcases he with (⟨_, -, rfl⟩ | ⟨_, -, rfl⟩) | ⟨x, hx, rfl⟩
    · trivial
    · trivial
    · exact (hbounds hx).1
  have inv := foldlM_applyAccountEvent_invariant hwellformed hs
  have hnodup : (events.filterMap AccountEvent.executionId?).Nodup := by
    rw [← hevents, ((sortOn_perm _ _).filterMap _).nodup_iff]
    simpa [List.filterMap_map, Function.comp_def, AccountEvent.executionId?] using hids
  have hlineage := foldlM_lineage hwellformed hnodup hs
  -- what is divided between the matches and the lots of a purchase
  have hconserved {F : FifoLot → ℚ} {G : FifoRealizedMatch → ℚ}
    (hdivides : Divides H facts.accountId F G)
      (hsplit : ∀ split, .split split ∈ events → ∀ lot lot', splitLot H split lot = .ok lot' →
        F lot' = F lot) {x : FifoExecution} (hx : x ∈ xs) (hbuy : x.side = .buy) :
      ((s.realizedMatches.filter (·.buy = x)).map G).sum +
        (((positions.flatMap (·.openLotLineage)).filter (·.execution = x)).map fun line =>
          F line.toLot).sum = if 0 < x.quantity then F x.opening else 0 := by
    have hsum := foldlM_divides (hdivides.only x) (fun split hmem lot lot' hlot => ?_) hs
    · rw [sum_map_filter, sum_map_filter]
      refine ((congrArg _ (sum_openLots inv hpositions)).trans hsum).trans ?_
      rw [← hevents, sum_events_eq hids.of_map hx (fun _ => rfl) (fun _ => rfl) fun y hy => ?_]
      · simp [AccountEvent.brings, hbuy, FifoExecution.opening]
      · simp [AccountEvent.brings, FifoExecution.opening, hy]
    · simp only [(splitLot_same hlot).1, hsplit split hmem lot lot' hlot]
  refine ⟨fun x hx hbuy hpos => ?_, fun x hx hsell hpos => ?_, fun x hx hsell hzero => ?_,
    fun x hx hbuy => ?_, hlineage.pairs, fun hnone x hx hbuy => ?_⟩
  · refine (hconserved divides_feeWeight (fun _ _ _ _ h => (splitLot_same h).2.2) hx hbuy).trans ?_
    rw [if_pos hpos]
    rfl
  · rw [sum_map_filter, hlineage.sold x hpos, ← hevents,
      sum_events_eq hids.of_map hx (fun _ => rfl) (fun _ => rfl) fun y hy => ?_]
    · simp [AccountEvent.sells, hsell]
    · simp [AccountEvent.sells, hy]
  · rw [List.filter_eq_nil_iff]
    intro m hm hsold
    exact (hlineage.sells m hm).1 (of_decide_eq_true hsold ▸ hzero)
  · refine (hconserved divides_costBasis (fun _ _ _ _ h => (splitLot_same h).2.1) hx hbuy).trans ?_
    rcases (hbounds hx).1.lt_or_eq with hpos | hzero
    · rw [if_pos hpos]
      rfl
    · rw [← hzero, if_neg (lt_irrefl 0), zero_mul]
  · have hunsplit (split : StockSplitAction) : .split split ∉ events := by
      intro hmem
      simp only [← hevents, mem_sortOn, List.mem_append, List.mem_map, AccountEvent.split.injEq,
        exists_eq_right, reduceCtorEq, and_false, exists_false, or_false, hsplits, hnone,
        List.not_mem_nil] at hmem
    refine (hconserved divides_quantity (fun split hmem => absurd hmem (hunsplit split))
      hx hbuy).trans ?_
    rcases (hbounds hx).1.lt_or_eq with hpos | hzero
    · rw [if_pos hpos]
      rfl
    · rw [← hzero, if_neg (lt_irrefl 0)]

/-- In the sample account four of the nine shares of the purchase were sold. -/
theorem sample_lots_conserved : ∃ facts p, projectUnvaluedFifoAccount .plain facts 6 = .ok p ∧
    p.realizedMatches.map (·.buyFeeWeight) = [4 / 9] ∧
    ∀ x ∈ p.executions, x.side = .buy → 0 < x.quantity →
      ((p.realizedMatches.filter (·.buy = x)).map (·.buyFeeWeight)).sum +
        ((p.openLots.filter (·.execution = x)).map (·.feeWeight)).sum = 1 := by
  have h : (fun p => p.realizedMatches.map (·.buyFeeWeight)) <$>
      (sampleFacts >>= fun facts => projectUnvaluedFifoAccount .plain facts 6) = .ok [4 / 9] := by
    decide +kernel
  simp only [eq_ok] at h
  obtain ⟨p, ⟨facts, -, hp⟩, hweights⟩ := h
  exact ⟨facts, p, hp, hweights, (lots_conserved_by_purchase hp).1⟩

/-- A sale that was corrected to nothing. -/
def sampleVoidedSale : Py CanonicalOrderState := do
  let intent ← sampleIntent .sell 4
  let submission ← createOrderSubmission .plain intent "risk" "attempt" 0
  let orderId := submission.val.orderId
  let fill ← sampleEvent orderId 1 3 (.execution ⟨"x2", 1, 4, 25, 1⟩)
  let correction ← sampleEvent orderId 2 4
    (.executionCorrection ⟨"x2", 2, 0, 25, 0⟩ fill.val.eventId)
  reduceOrderLifecycle .plain submission [fill, correction] none

def sampleVoidedAccount : Py UnvaluedFifoAccountProjection := do
  let contribution ← createCashFlow .plain .contribution "USD" 1000 0 0 "wire"
  let purchase ← samplePurchase
  let sale ← sampleVoidedSale
  projectUnvaluedFifoAccount .plain ⟨"account", [purchase, sale], [contribution], [],
    [], [], "USD"⟩ 6

/-- It sold no shares and has no matches, so there is nothing its fee could be attributed to. -/
theorem voided_sale_unmatched : ∃ facts p, ∃ x ∈ p.executions,
    projectUnvaluedFifoAccount .plain facts 6 = .ok p ∧ x.side = .sell ∧
      ((p.realizedMatches.filter (·.sell = x)).map (·.sellFeeWeight)).sum ≠ 1 := by
  have h : (fun p => (p.executions.filter (·.side = .sell)).map fun x =>
      ((p.realizedMatches.filter (·.sell = x)).map (·.sellFeeWeight)).sum) <$> sampleVoidedAccount =
        .ok [0] := by
    decide +kernel
  simp only [sampleVoidedAccount, eq_ok] at h
  obtain ⟨p, ⟨contribution, -, purchase, -, sale, -, hp⟩, hsums⟩ := h
  obtain ⟨x, hsales, hsum⟩ := List.map_eq_singleton_iff.1 hsums
  have hx : x ∈ p.executions.filter (·.side = .sell) := by
    rw [hsales]
    exact List.mem_singleton_self x
  rw [List.mem_filter, decide_eq_true_eq] at hx
  exact ⟨_, p, x, hx.1, hp, hx.2, by rw [hsum]; exact zero_ne_one⟩

/-- **An account is reconciled with its facts**: its cash, dividends and fees, the basis of its lots
less the gains realized, and the shares of each position are what the facts add up to; an instrument
that was traded or split has exactly one position. -/
theorem account_reconciled (h : projectUnvaluedFifoAccount H facts asOf = .ok p) :
    p.cash = facts.contributions - facts.withdrawals - facts.notional - facts.fees +
        facts.dividendsPaid ∧
      p.corporateActionLedger.dividendIncome = facts.dividends ∧
      p.corporateActionLedger.dividendReceivable = facts.dividends - facts.dividendsPaid ∧
      (p.positions.map (·.executionFees)).sum = facts.fees ∧
      (p.positions.map (·.basis)).sum - (p.positions.map (·.realizedPnlBeforeFees)).sum =
        facts.notional ∧
      (p.positions.map (·.instrumentId)).Nodup ∧
      (∀ item ∈ facts.executions,
        item.1.submission.val.intent.val.instrumentId ∈ p.positions.map (·.instrumentId)) ∧
      (∀ split ∈ facts.stockSplits,
        split.val.instrumentId ∈ p.positions.map (·.instrumentId)) ∧
      ∀ position ∈ p.positions, 0 ≤ position.units ∧
        position.units = facts.units position.instrumentId := by
  simp only [projectUnvaluedFifoAccount, eq_ok] at h
  obtain ⟨evidence, hevidence, h⟩ := h
  obtain ⟨hperm, hcanonical, -, -, -, -, -, -, hsplits⟩ := prepareFifoEvidence_spec hevidence
  obtain ⟨hcorporate, -, hfees, hunits, hnodup, htraded, hsplit⟩ :=
    reduceUnvaluedFifo_spec hcanonical h
  obtain ⟨-, hcost⟩ := costValue_eq hevidence h
  have hcash := cashBalance_eq hevidence
  have hincome := dividendIncome_eq hevidence
  have hreceivable := dividendReceivable_eq hevidence
  rw [executionFees_eq hevidence] at hfees
  rw [← hcorporate] at hcash hincome hreceivable
  refine ⟨hcash, hincome, hreceivable, hfees, ?_, hnodup, fun item hitem => ?_,
    fun split hmem => hsplit split ((hsplits split).2 hmem), fun position hposition =>
    ⟨position.units_nonneg, positionQuantity_eq hevidence (hunits position hposition)⟩⟩
  · -- the basis that is left is what the account at cost has besides cash and receivables
    rw [UnvaluedFifoAccountProjection.cash] at hcost
    linarith
  · exact htraded item ((hperm.flatMap_right _).mem_iff.2 hitem)

theorem sample_reconciled : ∃ facts p, projectUnvaluedFifoAccount .plain facts 6 = .ok p ∧
    facts.fees = 2 ∧ (p.positions.map (·.executionFees)).sum = 2 := by
  have h : (fun x => x.1.fees) <$> (sampleFacts >>= fun facts =>
      (facts, ·) <$> projectUnvaluedFifoAccount .plain facts 6) = .ok 2 := by
    decide +kernel
  simp only [eq_ok] at h
  obtain ⟨_, ⟨facts, -, p, hp, rfl⟩, hfees⟩ := h
  obtain ⟨-, -, -, hsum, -⟩ := account_reconciled hp
  exact ⟨facts, p, hp, hfees, hsum.trans hfees⟩

end AutoQuantTrader
