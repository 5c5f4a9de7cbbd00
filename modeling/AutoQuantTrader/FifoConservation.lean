import Mathlib.Algebra.Order.BigOperators.Group.List
import Mathlib.Tactic.Linarith
import AutoQuantTrader.Fifo

/-!
# What the lot book conserves

Cost basis enters the book with a purchase and leaves it with a sale, and what leaves it is what the
sale's gain is reduced by.  So over any timeline the basis that is left, less the gains realized, is
what was bought less what was sold (`FifoInvariant.basis`), however the division in a partial sale
was rounded.
-/

namespace AutoQuantTrader

open Result Sorting

variable {H : CorporateHashes} {accountId : Str}

/-! ## One sale -/

variable {lot : FifoLot}

/-- A lot that is used up leaves with its whole basis. -/
theorem consumedBasis_of_eq (hc : consumed = lot.quantity)
    (h : consumedBasis lot consumed = .ok basis) : basis = lot.costBasis := by
  rw [consumedBasis, if_pos hc, pure_eq_ok] at h
  exact h.symm

/-- What a sale takes from a lot. -/
def matchOf (H : CorporateHashes) (accountId : Str) (sell : FifoExecution) (lot : FifoLot)
    (consumed basis : ℚ) : FifoRealizedMatch where
  matchId := H.canonicalId "fifo-match" [.text accountId, .text lot.execution.executionId,
    .text sell.executionId]
  buy := lot.execution
  sell
  quantity := consumed
  costBasis := basis
  proceeds := consumed * sell.price
  buyFeeWeight := lot.feeWeight * consumed / lot.quantity
  sellFeeWeight := consumed / sell.quantity
  splitIds := lot.splitIds
  splitSha256s := lot.splitSha256s

/-- What it leaves of the lot. -/
def FifoLot.less (lot : FifoLot) (consumed basis : ℚ) : FifoLot :=
  { lot with
    quantity := lot.quantity - consumed
    costBasis := lot.costBasis - basis
    feeWeight := lot.feeWeight - lot.feeWeight * consumed / lot.quantity }

variable {lots : List FifoLot} {sell : FifoExecution}

/-- **The rule of a sale**: it uses up lots from the front, and may end with a part of one.  `I` is
about the lots that are left, the shares to sell, the basis and the matches so far. -/
theorem consumeLots_rule {I Q : List FifoLot → ℚ → ℚ → List FifoRealizedMatch → Prop}
    (used : ∀ lot rest remaining basis matched, I (lot :: rest) remaining basis matched →
      0 < remaining → lot.quantity ≤ remaining → lot.quantity ≠ 0 → sell.quantity ≠ 0 →
      I rest (remaining - lot.quantity) (basis + lot.costBasis) (matched ++ [matchOf H accountId
      sell lot lot.quantity lot.costBasis]))
    (part : ∀ lot rest remaining basis matched taken, I (lot :: rest) remaining basis matched →
      0 < remaining → remaining < lot.quantity → sell.quantity ≠ 0 →
      consumedBasis lot remaining = .ok taken →
      Q (lot.less remaining taken :: rest) 0 (basis + taken) (matched ++ [matchOf H accountId sell
      lot remaining taken]))
    (done : ∀ lots remaining basis matched, I lots remaining basis matched → (0 < remaining →
      lots = []) → Q lots remaining basis matched)
    (init : I lots c.remaining c.costBasis c.realizedMatches) (hc : c.lots = [])
    (h : consumeLots H accountId sell lots c = .ok c') :
    Q c'.lots c'.remaining c'.costBasis c'.realizedMatches := by
  induction lots generalizing c with
  | nil =>
    rw [consumeLots, pure_eq_ok] at h
    subst h
    rw [hc]
    exact done _ _ _ _ init fun _ => rfl
  | cons lot rest ih =>
    rw [consumeLots] at h
    split at h
    · next hpos =>
      simp only [eq_ok, throwIf_eq_ok, not_or] at h
      obtain ⟨basis, hbasis, costBasis, hcost, _, ⟨hne, hsell⟩, proceeds, hproceeds, quantity,
        hquantity, lotBasis, hlotBasis, remaining, hremaining, h⟩ := h
      rw [exactDecimalAdd_eq hcost, exactDecimalMultiply_eq hproceeds,
        exactDecimalSubtract_eq hquantity, exactDecimalSubtract_eq hlotBasis,
        exactDecimalSubtract_eq hremaining] at h
      split at h
      · next hzero =>
        have hused : min c.remaining lot.quantity = lot.quantity := by linarith
        rw [hused] at h hbasis
        rw [consumedBasis_of_eq rfl hbasis] at h
        refine ih ?_ ?_ h
        · exact used _ _ _ _ _ init hpos (min_eq_right_iff.1 hused) hne hsell
        · exact hc
      · next hleft =>
        have hpart : c.remaining < lot.quantity := by
          by_contra hle
          rw [min_eq_right (not_lt.1 hle)] at hleft
          exact hleft (sub_self _)
        rw [min_eq_left hpart.le] at h hbasis
        rw [pure_eq_ok] at h
        subst h
        rw [sub_self]
        exact part _ _ _ _ _ _ init hpos hpart hsell hbasis
    · next hnone =>
      rw [pure_eq_ok] at h
      subst h
      exact done _ _ _ _ init fun hpos => absurd hpos hnone

variable {F : FifoLot → ℚ} {G : FifoRealizedMatch → ℚ}

/-- A sale divides `F` of a lot between what it takes, by `G`, and what it leaves. -/
structure Divides (H : CorporateHashes) (accountId : Str) (F : FifoLot → ℚ)
    (G : FifoRealizedMatch → ℚ) : Prop where
  used : ∀ sell lot, lot.quantity ≠ 0 →
    G (matchOf H accountId sell lot lot.quantity lot.costBasis) = F lot
  part : ∀ sell lot remaining taken,
    G (matchOf H accountId sell lot remaining taken) + F (lot.less remaining taken) = F lot

theorem divides_costBasis : Divides H accountId (·.costBasis) (·.costBasis) where
  used _ _ _ := rfl
  part _ _ _ _ := add_sub_cancel _ _

/-- What the lots carried is in the matches or still in the lots. -/
theorem consumeLots_divides (h : Divides H accountId F G) (hc : c.lots = [])
    (hrun : consumeLots H accountId sell lots c = .ok c') :
    (c'.realizedMatches.map G).sum + (c'.lots.map F).sum =
      (c.realizedMatches.map G).sum + (lots.map F).sum := by
  refine consumeLots_rule (I := fun left _ _ matched => (matched.map G).sum + (left.map F).sum =
    (c.realizedMatches.map G).sum + (lots.map F).sum) ?_ ?_ (fun _ _ _ _ h _ => h) rfl hc hrun
  · intro lot rest _ _ matched hsum _ _ hne _
    rw [sum_map_snoc, h.used sell lot hne, ← hsum, List.map_cons, List.sum_cons, add_assoc]
  · intro lot rest remaining _ matched taken hsum _ _ _ _
    rw [sum_map_snoc, ← hsum, List.map_cons, List.map_cons, List.sum_cons, List.sum_cons,
      ← h.part sell lot remaining taken]
    ring

/-- **A sale moves basis, it does not make any**: what it takes and what it leaves is what there
was. -/
theorem consumeLots_basis (h : consumeLots H accountId sell lots ⟨remaining, 0, [], []⟩ = .ok c) :
    c.costBasis + (c.lots.map (·.costBasis)).sum = (lots.map (·.costBasis)).sum := by
  have hmatches := consumeLots_divides divides_costBasis rfl h
  have htaken : c.costBasis = (c.realizedMatches.map (·.costBasis)).sum := by
    refine consumeLots_rule (I := fun _ _ basis matched => basis = (matched.map (·.costBasis)).sum)
      ?_ ?_ (fun _ _ _ _ h _ => h) rfl rfl h
    · rintro lot _ _ _ _ rfl _ _ _ _
      rw [sum_map_snoc, matchOf]
    · rintro lot _ _ _ _ taken rfl _ _ _ _
      rw [sum_map_snoc, matchOf]
  rw [htaken, hmatches]
  simp

/-! ## The timeline -/

/-- The signed notional of an execution: what is paid for the shares. -/
def FifoExecution.signedNotional (x : FifoExecution) : ℚ := x.side.sign * (x.quantity * x.price)

namespace AccountEvent

/-- What an event pays for shares. -/
def notional : AccountEvent → ℚ
  | .execution x => x.signedNotional
  | _ => 0

def instrumentId : AccountEvent → Str
  | .split s => s.val.instrumentId
  | .dividend d => d.val.instrumentId
  | .execution x => x.instrumentId

/-- Executions buy or sell; they do not do so with negative quantities. -/
def Wellformed : AccountEvent → Prop
  | .execution x => 0 ≤ x.quantity
  | _ => True

end AccountEvent

/-- The total over all instruments. -/
def total (d : Dict Str ℚ) : ℚ := d.sumBy fun _ v => v

theorem total_set (d : Dict Str ℚ) (k : Str) (v : ℚ) :
    total (d.set k v) = total d + v - d.getD k 0 := by
  rw [total, Dict.sumBy_set, Dict.getD]
  cases d.get? k <;> rfl

/-- The total over the book. -/
def bookSum (F : FifoLot → ℚ) (lots : Dict Str (List FifoLot)) : ℚ :=
  lots.sumBy fun _ l => (l.map F).sum

theorem bookSum_set (lots : Dict Str (List FifoLot)) (k : Str) (l : List FifoLot) :
    bookSum F (lots.set k l) = bookSum F lots + (l.map F).sum - ((lots.getD k []).map F).sum := by
  rw [bookSum, Dict.sumBy_set, Dict.getD]
  cases lots.get? k <;> rfl

/-- What holds of the book after some events. -/
structure FifoInvariant (events : List AccountEvent) (s : FifoState) : Prop where
  basis : bookSum (·.costBasis) s.lots - total s.realizedByInstrument =
    (events.map AccountEvent.notional).sum
  lotKeys : ∀ k ∈ s.lots.keys, k ∈ s.symbols.keys
  realizedKeys : ∀ k ∈ s.realizedByInstrument.keys, k ∈ s.symbols.keys
  instruments : ∀ e ∈ events, e.instrumentId ∈ s.symbols.keys

theorem FifoInvariant.initial : FifoInvariant [] .initial := by
  constructor <;> simp [FifoState.initial, bookSum, total, Dict.keys, Dict.empty, Dict.sumBy]

variable {events : List AccountEvent} {s s' : FifoState}

/-- Every instrument stays known when an event of a known instrument is added. -/
theorem FifoInvariant.instruments_append {event : AccountEvent} (inv : FifoInvariant events s)
    (hs : ∀ k ∈ s.symbols.keys, k ∈ s'.symbols.keys)
    (hevent : event.instrumentId ∈ s'.symbols.keys) :
    ∀ e ∈ events ++ [event], e.instrumentId ∈ s'.symbols.keys := by
  intro e he
  rcases mem_snoc.1 he with he | rfl
  · exact hs _ (inv.instruments e he)
  · exact hevent

theorem mem_keys_of_symbol {d : Dict Str Str} (h : d.get? k = some symbol) : k ∈ d.keys := by
  by_contra hk
  rw [Dict.get?_eq_none.2 hk] at h
  contradiction

variable {split : StockSplitAction}

/-- A split changes nothing of a lot but its shares. -/
theorem splitLot_same (h : splitLot H split lot = .ok lot') :
    lot'.execution = lot.execution ∧
      lot'.costBasis = lot.costBasis ∧ lot'.feeWeight = lot.feeWeight := by
  simp only [splitLot, eq_ok] at h
  obtain ⟨_, -, _, -, _, -, _, -, rfl⟩ := h
  exact ⟨rfl, rfl, rfl⟩

/-- A split leaves the cost of the book as it is. -/
theorem applySplit_invariant (inv : FifoInvariant events s) (h : applySplit H s split = .ok s') :
    FifoInvariant (events ++ [.split split]) s' := by
  simp only [applySplit, Py.eq_ok] at h
  obtain ⟨held, -, _, -, _, hsymbol, _, -, rescaled, hrescaled, _, -, _, -, rfl⟩ := h
  have hk : split.val.instrumentId ∈ s.symbols.keys := mem_keys_of_symbol hsymbol
  refine ⟨?_, fun k hmem => ?_, inv.realizedKeys, inv.instruments_append (fun _ hk => hk) hk⟩
  · rw [bookSum_set, sum_map_of_mapM (fun _ _ hlot => (splitLot_same hlot).2.1) hrescaled,
      add_sub_cancel_right, inv.basis]
    simp [AccountEvent.notional]
  · rcases Dict.mem_keys_set.1 hmem with rfl | hmem
    · exact hk
    · exact inv.lotKeys k hmem

/-- A dividend leaves the cost of the book as it is. -/
theorem applyDividend_invariant (inv : FifoInvariant events s)
    (h : applyDividend s dividend = .ok s') :
    FifoInvariant (events ++ [.dividend dividend]) s' := by
  simp only [applyDividend, Py.eq_ok] at h
  obtain ⟨held, -, _, -, _, hsymbol, amount, -, income, -, rfl⟩ := h
  refine ⟨?_, inv.lotKeys, inv.realizedKeys,
    inv.instruments_append (fun _ hk => hk) (mem_keys_of_symbol hsymbol)⟩
  simpa [AccountEvent.notional] using inv.basis

variable {x : FifoExecution}

/-- Buying adds what is paid to the basis. -/
theorem applyBuy_spec (hx : 0 ≤ x.quantity) (h : applyBuy s x = .ok s') :
    ∃ lots, s' = { s with lots := s.lots.set x.instrumentId lots } ∧
      (lots.map (·.costBasis)).sum =
        ((s.lots.getD x.instrumentId []).map (·.costBasis)).sum + x.quantity * x.price := by
  unfold applyBuy at h
  split at h
  · simp only [eq_ok] at h
    obtain ⟨basis, hbasis, rfl⟩ := h
    refine ⟨_, rfl, ?_⟩
    rw [sum_map_snoc, exactDecimalMultiply_eq hbasis]
  · next hpos =>
    rw [pure_eq_ok] at h
    have hzero : x.quantity = 0 := le_antisymm (not_lt.1 hpos) hx
    exact ⟨_, h.symm, by rw [hzero, zero_mul, add_zero]⟩

/-- Selling takes the proceeds out of basis less gains. -/
theorem applySell_spec (h : applySell H accountId s x = .ok s') :
    ∃ lots realized matched, s' = { s with
        lots := s.lots.set x.instrumentId lots
        realizedByInstrument := s.realizedByInstrument.set x.instrumentId realized
        realizedMatches := matched } ∧
      (lots.map (·.costBasis)).sum - realized =
        ((s.lots.getD x.instrumentId []).map (·.costBasis)).sum -
          s.realizedByInstrument.getD x.instrumentId 0 - x.quantity * x.price := by
  simp only [applySell, eq_ok] at h
  obtain ⟨c, hc, _, -, proceeds, hproceeds, gain, hgain, realized, hrealized, rfl⟩ := h
  refine ⟨_, _, _, rfl, ?_⟩
  have hbasis := consumeLots_basis hc
  rw [exactDecimalAdd_eq hrealized, exactDecimalSubtract_eq hgain,
    exactDecimalMultiply_eq hproceeds]
  linarith

/-- An execution moves the cost of the book by its notional. -/
theorem applyExecution_invariant (hx : 0 ≤ x.quantity) (inv : FifoInvariant events s)
    (h : applyExecution H accountId s x = .ok s') :
    FifoInvariant (events ++ [.execution x]) s' := by
  simp only [applyExecution, eq_ok] at h
  obtain ⟨_, -, fees, -, h⟩ := h
  have hnotional : ((events ++ [AccountEvent.execution x]).map AccountEvent.notional).sum =
      (events.map AccountEvent.notional).sum + x.signedNotional := by
    simp [AccountEvent.notional]
  -- every key the event writes is the instrument whose symbol it has just recorded
  have hcover {ν : Type} {d : Dict Str ν} {v : ν} (hd : ∀ k ∈ d.keys, k ∈ s.symbols.keys) :
      ∀ k ∈ (d.set x.instrumentId v).keys, k ∈ (s.symbols.set x.instrumentId x.symbol).keys := by
    intro k hk
    rw [Dict.mem_keys_set] at hk ⊢
    exact hk.imp_right (hd k)
  have hinstruments : ∀ e ∈ events ++ [AccountEvent.execution x],
      e.instrumentId ∈ (s.symbols.set x.instrumentId x.symbol).keys := by
    change ∀ e ∈ _, _ ∈ ({ s with symbols := s.symbols.set x.instrumentId x.symbol }
      : FifoState).symbols.keys
    refine inv.instruments_append (fun k hk => ?_) ?_
    · exact Dict.mem_keys_set.2 (.inr hk)
    · exact Dict.mem_keys_set.2 (.inl rfl)
  cases hside : x.side with
  | buy =>
    rw [hside] at h
    obtain ⟨lots, rfl, hlots⟩ := applyBuy_spec hx h
    refine ⟨?_, hcover inv.lotKeys, fun k hk => ?_, hinstruments⟩
    · rw [bookSum_set, hlots, hnotional, ← inv.basis, FifoExecution.signedNotional, hside,
        Side.sign]
      ring
    · exact Dict.mem_keys_set.2 (.inr (inv.realizedKeys k hk))
  | sell =>
    rw [hside] at h
    obtain ⟨lots, realized, matched, rfl, hlots⟩ := applySell_spec h
    refine ⟨?_, hcover inv.lotKeys, hcover inv.realizedKeys, hinstruments⟩
    rw [bookSum_set, total_set, hnotional, ← inv.basis, FifoExecution.signedNotional, hside,
      Side.sign]
    linarith

/-- **The book is conserved over every timeline.** -/
theorem foldlM_applyAccountEvent_invariant (hevents : ∀ e ∈ events, e.Wellformed)
    (h : events.foldlM (applyAccountEvent H accountId) .initial = .ok s) :
    FifoInvariant events s := by
  refine foldlM_invariant_done FifoInvariant ?_ FifoInvariant.initial h
  intro done event s s' hmem inv hstep
  cases event with
  | split split => exact applySplit_invariant inv hstep
  | dividend dividend => exact applyDividend_invariant inv hstep
  | execution x => exact applyExecution_invariant (hevents _ hmem) inv hstep

/-! ## The positions -/

/-- The cost basis of a position. -/
def UnvaluedFifoPosition.basis (p : UnvaluedFifoPosition) : ℚ :=
  (p.openLots.map (·.val.costBasis)).sum

/-- The shares of a position. -/
def UnvaluedFifoPosition.units (p : UnvaluedFifoPosition) : ℚ :=
  (p.openLots.map (·.val.quantity)).sum

/-- Open lots hold shares, so no position is short. -/
theorem UnvaluedFifoPosition.units_nonneg (p : UnvaluedFifoPosition) : 0 ≤ p.units := by
  refine List.sum_nonneg fun q hq => ?_
  obtain ⟨lot, -, rfl⟩ := List.mem_map.1 hq
  have hpasses := lot.passes
  simp only [OpenTaxLotFields.postInit, Py.eq_ok, canonicalPersistedDecimal_eq_ok, not_or,
    not_le] at hpasses
  obtain ⟨_, -, _, -, _, ⟨-, rfl⟩, _, ⟨-, rfl⟩, _, ⟨hpos, -⟩, -⟩ := hpasses
  exact hpos.le

/-- A position reports the book of its own instrument. -/
theorem unvaluedPosition_spec (h : unvaluedPosition s item = .ok p) :
    p.instrumentId = item.1 ∧ p.basis = ((s.lots.getD item.1 []).map (·.costBasis)).sum ∧
      p.realizedPnlBeforeFees = s.realizedByInstrument.getD item.1 0 := by
  simp only [unvaluedPosition, eq_ok] at h
  obtain ⟨lineage, hlineage, rfl⟩ := h
  refine ⟨rfl, ?_, rfl⟩
  rw [UnvaluedFifoPosition.basis, UnvaluedFifoPosition.openLots, List.map_map]
  refine sum_map_of_mapM (fun lot line hline => ?_) hlineage
  simp only [openLotLineage, Py.eq_ok] at hline
  obtain ⟨openLot, hopen, rfl⟩ := hline
  simp [hopen]

/-- Reading the positions adds up the whole book. -/
theorem positions_basis (inv : FifoInvariant events s)
    (h : (sortOn Prod.fst s.symbols.entries).mapM (unvaluedPosition s) = .ok positions) :
    (positions.map (·.basis)).sum - (positions.map (·.realizedPnlBeforeFees)).sum =
      (events.map AccountEvent.notional).sum := by
  have hbasis : (positions.map (·.basis)).sum = bookSum (·.costBasis) s.lots := by
    rw [sum_map_of_mapM (fun item p hp => (unvaluedPosition_spec hp).2.1) h, sum_map_sortOn,
      bookSum, ← Dict.sum_getD_eq_sumBy (v := []) (f := fun l : List FifoLot =>
        (l.map (·.costBasis)).sum) rfl s.symbols.nodup inv.lotKeys, List.map_map]
    rfl
  have hrealized : (positions.map (·.realizedPnlBeforeFees)).sum =
      total s.realizedByInstrument := by
    rw [sum_map_of_mapM (fun item p hp => (unvaluedPosition_spec hp).2.2) h, sum_map_sortOn,
      total, ← Dict.sum_getD_eq_sumBy (f := fun v : ℚ => v) rfl s.symbols.nodup
        inv.realizedKeys, List.map_map]
    rfl
  rw [hbasis, hrealized, inv.basis]

/-- There is one position for each instrument. -/
theorem positions_instruments
    (h : (sortOn Prod.fst s.symbols.entries).mapM (unvaluedPosition s) = .ok positions) :
    (positions.map (·.instrumentId)).Perm s.symbols.keys := by
  rw [map_of_mapM (fun item p hp => (unvaluedPosition_spec hp).1) h]
  exact (sortOn_perm _ _).map _

/-! ## The executions on the timeline -/

/-- The signed notional of a current execution of an order. -/
def signedNotional (item : CanonicalOrderState × ExecutionProjection) : ℚ :=
  item.1.submission.val.intent.val.side.sign * (item.2.quantity * item.2.price)

/-- The executions on the timeline are those of the orders, and an identity has one order. -/
theorem currentExecutions_spec (h : currentExecutions H states = .ok xs) :
    (∃ ys, (ownedExecutions states).mapM (fun item => fifoExecution H item.1 item.2) = .ok ys ∧
      xs.Perm ys) ∧
    ∀ a ∈ ownedExecutions states, ∀ b ∈ ownedExecutions states,
      a.2.executionId = b.2.executionId → a.1.submission.val.orderId =
      b.1.submission.val.orderId := by
  simp only [currentExecutions, eq_ok] at h
  obtain ⟨acc, hacc, rfl⟩ := h
  have hcollected := foldlM_invariant_done (fun done (acc : Dict Str Str × List FifoExecution) =>
    done.mapM (fun item => fifoExecution H item.1 item.2) = .ok acc.2 ∧
      Dict.Binds (·.2.executionId) (·.1.submission.val.orderId) acc.1 done) ?_
    ⟨rfl, fun k v => by simp⟩ hacc
  · exact ⟨⟨acc.2, hcollected.1, sortOn_perm _ _⟩, fun a ha b hb => hcollected.2.value_eq ha hb⟩
  · rintro done item acc acc' - ⟨hmap, hbinds⟩ hstep
    simp only [collectExecution, Py.eq_ok, not_exists, not_and] at hstep
    obtain ⟨_, howner, x, hx, rfl⟩ := hstep
    have hlast : [item].mapM (fun item => fifoExecution H item.1 item.2) = .ok [x] :=
      mapM_cons_eq_ok.2 ⟨x, hx, [], rfl, rfl⟩
    exact ⟨mapM_append_eq_ok.2 ⟨_, hmap, _, hlast, rfl⟩, hbinds.insert howner⟩

/-- An execution carries the economics of its order's projection. -/
theorem fifoExecution_spec (h : fifoExecution H state current = .ok x) :
    x.signedNotional = signedNotional (state, current) ∧ x.quantity = current.quantity ∧
      x.price = current.price ∧ x.instrumentId = state.submission.val.intent.val.instrumentId := by
  simp only [fifoExecution, eq_ok] at h
  obtain ⟨_, -, _, -, rfl⟩ := h
  exact ⟨rfl, rfl, rfl, rfl⟩

theorem currentExecutions_bounds (hstates : ∀ state ∈ states, state.IsCanonical H.toOrderHashes)
    (h : currentExecutions H states = .ok xs) (hx : x ∈ xs) :
    0 ≤ x.quantity ∧ 0 < x.price ∧ isWhole x.quantity ∧ isPersisted x.quantity ∧
      isPersisted x.price := by
  obtain ⟨⟨ys, hys, hperm⟩, -⟩ := currentExecutions_spec h
  obtain ⟨item, hitem, hfifo⟩ := exists_of_mem_mapM hys (hperm.mem_iff.1 hx)
  obtain ⟨-, hquantity, hprice, -⟩ := fifoExecution_spec hfifo
  simp only [ownedExecutions, List.mem_flatMap, List.mem_map] at hitem
  obtain ⟨state, hstate, current, hcurrent, rfl⟩ := hitem
  obtain ⟨hnonneg, hpos, -, hwhole⟩ := executions_bounds (hstates state hstate) hcurrent
  rw [hquantity, hprice]
  exact ⟨hnonneg, hpos, hwhole⟩

/-- **The reconciled lot book**: the basis that is left less the gains realized is what was paid
less what was received, every position holds what the ledger says, and an instrument that was traded
or split has exactly one position. -/
theorem reduceUnvaluedFifo_spec (hstates : ∀ state ∈ states, state.IsCanonical H.toOrderHashes)
    (h : reduceUnvaluedFifo H accountId currency ledger corporate states asOf = .ok p) :
    p.corporateActionLedger = corporate ∧
      (p.positions.map (·.basis)).sum - (p.positions.map (·.realizedPnlBeforeFees)).sum =
        ((ownedExecutions states).map signedNotional).sum ∧
      (p.positions.map (·.executionFees)).sum =
        (balanceAt ledger.balances ⟨.executionFees, currency, none⟩).1 ∧
      (∀ position ∈ p.positions,
        corporate.positionQuantity position.instrumentId = .ok position.units) ∧
      (p.positions.map (·.instrumentId)).Nodup ∧
      (∀ item ∈ ownedExecutions states,
        item.1.submission.val.intent.val.instrumentId ∈ p.positions.map (·.instrumentId)) ∧
      ∀ split ∈ corporate.stockSplits,
        split.val.instrumentId ∈ p.positions.map (·.instrumentId) := by
  simp only [reduceUnvaluedFifo, Py.eq_ok, forM_eq_ok] at h
  obtain ⟨executions, hexecutions, s, hs, positions, hpositions, fees, hfees, _, hledgerFees, _,
    hreconciled, income, -, _, -, _, -, rfl⟩ := h
  obtain ⟨⟨ys, hys, hperm⟩, -⟩ := currentExecutions_spec hexecutions
  have hwellformed : ∀ e ∈ sortOn AccountEvent.order
      (corporate.stockSplits.map AccountEvent.split ++
        corporate.cashDividends.map .dividend ++ executions.map .execution), e.Wellformed := by
    intro e he
    simp only [mem_sortOn, List.mem_append, List.mem_map] at he
    rcases he with (⟨_, -, rfl⟩ | ⟨_, -, rfl⟩) | ⟨x, hx, rfl⟩
    · trivial
    · trivial
    · exact (currentExecutions_bounds hstates hexecutions hx).1
  have inv := foldlM_applyAccountEvent_invariant hwellformed hs
  have hcovered := positions_instruments hpositions
  refine ⟨rfl, ?_, ?_, fun position hposition => ?_, hcovered.nodup_iff.2 s.symbols.nodup,
    fun item hitem => ?_, fun split hsplit => ?_⟩
  · rw [positions_basis inv hpositions, sum_map_sortOn,
      ← sum_map_of_mapM (fun item x hx => (fifoExecution_spec hx).1) hys, ← (hperm.map _).sum_eq]
    simp [AccountEvent.notional, Function.comp_def]
  · rw [← hledgerFees]
    exact (exactDecimalSum_eq hfees).symm
  · have hposition := hreconciled position hposition
    simp only [reconcilePosition, Py.eq_ok] at hposition
    obtain ⟨quantity, hquantity, _, -, _, -, _, -, _, -, _, -, _, -, _, -, _, -, _, -, units,
      hunits, heq⟩ := hposition
    rw [hunits, ← heq, UnvaluedFifoPosition.units, exactDecimalSum_eq hquantity]
  · obtain ⟨x, hx, hfifo⟩ := exists_mem_of_mapM hys hitem
    rw [hcovered.mem_iff, ← (fifoExecution_spec hfifo).2.2.2]
    exact inv.instruments (.execution x) (by simp [hperm.mem_iff.2 hx])
  · rw [hcovered.mem_iff]
    exact inv.instruments (.split split) (by simp [hsplit])

end AutoQuantTrader
