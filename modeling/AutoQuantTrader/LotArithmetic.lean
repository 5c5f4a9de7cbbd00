import AutoQuantTrader.DecimalDivision
import AutoQuantTrader.AccountProjection

/-!
# No silent rounding in the lot book

A split and a partial sale divide.  Whenever the quotient passes its check it is the exact one, and
without splits the check of a partial sale always passes, because a lot keeps the basis of its
shares at the price they were bought for.
-/

namespace AutoQuantTrader

open Result Sorting

variable {H : CorporateHashes} {accountId : Str} {lot : FifoLot} {split : StockSplitAction}

/-! ## Quotients of the book -/

/-- A product of two amounts has at most twenty decimals. -/
theorem mul_pow10_eq_intCast (ha : isPersisted a) (hb : isPersisted b) :
    ∃ n : ℤ, a * b * pow10 20 = n := by
  obtain ⟨i, hi⟩ := den_eq_one_iff.1 ha.1
  obtain ⟨j, hj⟩ := den_eq_one_iff.1 hb.1
  refine ⟨i * j, ?_⟩
  rw [Int.cast_mul, ← hi, ← hj, show pow10 20 = pow10 10 * pow10 10 by rw [← pow10_add]]
  ring

theorem isWhole_iff : isWhole q ↔ ∃ n : ℤ, q = n :=
  ⟨fun h => ⟨q.num, ((Rat.den_eq_one_iff q).1 h).symm⟩, fun ⟨n, hn⟩ => by rw [hn]; rfl⟩

/-- A positive whole amount. -/
structure IsShares (q : ℚ) : Prop where
  persisted : isPersisted q
  pos : 0 < q
  whole : isWhole q

theorem isShares_of_wholeShares (h : wholeShares q name = .ok u) : IsShares q := by
  simp only [wholeShares, Py.eq_ok, canonicalPersistedDecimal_eq_ok, not_or, not_le] at h
  obtain ⟨_, ⟨hpersisted, -⟩, hpos, hwhole⟩ := h
  exact ⟨hpersisted, hpos, hwhole⟩

/-- The ratio and the position of a split are shares, and the position after it is a whole
number. -/
theorem StockSplitAction.shares (split : StockSplitAction) :
    IsShares split.val.numerator ∧ IsShares split.val.denominator ∧
      IsShares split.val.entitledQuantity ∧ ∃ r, split.val.postSplitQuantity = .ok r ∧
      isWhole r := by
  have hpasses := split.passes
  simp only [StockSplitFields.postInit, Py.eq_ok] at hpasses
  obtain ⟨_, -, _, -, _, -, _, -, _, -, _, -, _, hnumerator, _, hdenominator, _, -, _,
    hentitled, r, hr, _, hwhole, -⟩ := hpasses
  exact ⟨isShares_of_wholeShares hnumerator, isShares_of_wholeShares hdenominator,
    isShares_of_wholeShares hentitled, r, hr, hwhole⟩

/-- The split of a persisted lot is exact. -/
theorem splitLot_exact (hlot : isPersisted lot.quantity) (h : splitLot H split lot = .ok lot') :
    lot'.quantity = lot.quantity * split.val.numerator / split.val.denominator := by
  simp only [splitLot, eq_ok, canonicalPersistedDecimal_eq_ok] at h
  obtain ⟨scaled, hscaled, r, hr, _, -, _, ⟨hpersisted, rfl⟩, rfl⟩ := h
  obtain ⟨hnumerator, hdenominator, -⟩ := split.shares
  obtain ⟨n, hn⟩ := mul_pow10_eq_intCast hlot hnumerator.persisted
  rw [exactDecimalMultiply_eq hscaled] at hr
  exact divide_exact_of_persisted hr hn hdenominator.persisted hpersisted

/-- The position after a split is checked to be whole only; whole numbers are far apart. -/
theorem postSplitQuantity_exact (h : split.val.postSplitQuantity = .ok r) :
    r = split.val.entitledQuantity * split.val.numerator / split.val.denominator := by
  obtain ⟨hnumerator, hdenominator, hentitled, r', hr', hwhole⟩ := split.shares
  obtain rfl : r' = r := Except.ok.inj (hr'.symm.trans h)
  simp only [StockSplitFields.postSplitQuantity, eq_ok] at h
  obtain ⟨scaled, hscaled, h⟩ := h
  rw [exactDecimalMultiply_eq hscaled] at h
  obtain ⟨i, hi⟩ := isWhole_iff.1 hwhole
  obtain ⟨j, hj⟩ := isWhole_iff.1 hdenominator.whole
  obtain ⟨k, hk⟩ := isWhole_iff.1 hentitled.whole
  obtain ⟨l, hl⟩ := isWhole_iff.1 hnumerator.whole
  have hgrid : (r' * split.val.denominator - split.val.entitledQuantity * split.val.numerator) *
      pow10 0 = ((i * j - k * l : ℤ) : ℚ) := by
    rw [hi, hj, hk, hl]
    simp [pow10]
  refine divide_exact h hgrid hdenominator.persisted.2 (m := 36) ?_ (by decide)
  have hone : (1 : ℚ) ≤ split.val.denominator := by
    have hpos := hdenominator.pos
    rw [hj] at hpos ⊢
    exact_mod_cast hpos
  rw [abs_div, abs_of_pos hdenominator.pos, div_lt_iff₀ hdenominator.pos, abs_mul]
  calc |split.val.entitledQuantity| * |split.val.numerator| < pow10 18 * pow10 18 :=
        mul_lt_mul'' hentitled.persisted.2 hnumerator.persisted.2 (abs_nonneg _) (abs_nonneg _)
    _ = pow10 36 * 1 := by rw [← pow10_add, mul_one]
    _ ≤ pow10 36 * split.val.denominator := mul_le_mul_of_nonneg_left hone (pow10_pos 36).le

/-- The consumed part of a persisted basis is exact. -/
theorem consumedBasis_exact (hquantity : isPersisted lot.quantity) (hne : lot.quantity ≠ 0)
    (hbasis : isPersisted lot.costBasis) (hconsumed : isPersisted consumed)
    (h : consumedBasis lot consumed = .ok basis) :
    basis = lot.costBasis * consumed / lot.quantity := by
  unfold consumedBasis at h
  split at h
  · next hall =>
    rw [pure_eq_ok] at h
    rw [hall, mul_div_cancel_right₀ _ hne, h]
  · simp only [eq_ok, canonicalPersistedDecimal_eq_ok] at h
    obtain ⟨scaled, hscaled, r, hr, hpersisted, rfl⟩ := h
    obtain ⟨n, hn⟩ := mul_pow10_eq_intCast hbasis hconsumed
    rw [exactDecimalMultiply_eq hscaled] at hr
    exact divide_exact_of_persisted hr hn hquantity hpersisted

/-! ## Histories without splits -/

/-- An execution of whole shares whose price and amount are in the persisted range. -/
structure FifoExecution.InRange (x : FifoExecution) : Prop where
  whole : isWhole x.quantity
  quantity : isPersisted x.quantity
  price : isPersisted x.price ∧ 0 < x.price
  amount : isPersisted (x.quantity * x.price)

/-- An event that is not a split, in range. -/
def AccountEvent.Unsplit : AccountEvent → Prop
  | .split _ => False
  | .dividend _ => True
  | .execution x => x.InRange

/-- A lot at the price it was bought for. -/
structure FifoLot.AtCost (lot : FifoLot) : Prop where
  basis : lot.costBasis = lot.quantity * lot.execution.price
  whole : isWhole lot.quantity
  le : lot.quantity ≤ lot.execution.quantity
  inRange : lot.execution.InRange

theorem Fits.of_le (ha : Fits d a) (hb : (b * pow10 10).den = 1) (hpos : 0 ≤ b) (hle : b ≤ a) :
    Fits d b :=
  ⟨hb, by rw [abs_of_nonneg hpos]; exact (hle.trans (le_abs_self a)).trans_lt ha.2⟩

theorem isPersisted_of_isWhole (h : isWhole q) : (q * pow10 10).den = 1 := by
  obtain ⟨n, rfl⟩ := isWhole_iff.1 h
  exact den_eq_one_iff.2 ⟨n * 10 ^ 10, by norm_num [pow10]⟩

/-- **A part of such a lot can always be allocated**: it takes its own shares at the price. -/
theorem FifoLot.AtCost.consumedBasis (h : lot.AtCost) (hwhole : isWhole consumed)
    (hpos : 0 < consumed) (hle : consumed ≤ lot.quantity) :
    consumedBasis lot consumed = .ok (consumed * lot.execution.price) := by
  obtain ⟨hprice, hprice0⟩ := h.inRange.price
  -- every amount in sight is at most the amount of the purchase
  have hfits {q : ℚ} (hq : isWhole q) (hq0 : 0 < q) (hqle : q ≤ lot.quantity) :
      Fits 18 q ∧ Fits 18 (q * lot.execution.price) := by
    have hbought : q ≤ lot.execution.quantity := hqle.trans h.le
    refine ⟨Fits.of_le h.inRange.quantity (isPersisted_of_isWhole hq) hq0.le hbought, ?_⟩
    refine Fits.whole_mul hq hprice (lt_of_le_of_lt ?_ h.inRange.amount.2)
    rw [abs_of_pos (mul_pos hq0 hprice0)]
    exact (mul_le_mul_of_nonneg_right hbought hprice0.le).trans (le_abs_self _)
  unfold AutoQuantTrader.consumedBasis
  split
  · next hall => rw [h.basis, hall]; rfl
  · have hquantity0 : 0 < lot.quantity := hpos.trans_le hle
    have hquotient : lot.costBasis * consumed / lot.quantity = consumed * lot.execution.price := by
      rw [h.basis]
      field_simp
    have hbasis := (hfits h.whole hquantity0 le_rfl).2
    rw [← h.basis] at hbasis
    have hpart := hfits hwhole hpos hle
    have hscaled : exactDecimalMultiply lot.costBasis consumed = .ok (lot.costBasis * consumed) :=
      exactDecimalMultiply_of_fits (hbasis.mono (by decide)) (hpart.1.mono (by decide))
    have hscaled0 : lot.costBasis * consumed ≠ 0 := by
      rw [h.basis]
      positivity
    simp only [eq_ok, canonicalPersistedDecimal_eq_ok]
    refine ⟨_, hscaled, _, divide_of_fits ?_ hscaled0 hquantity0.ne', ?_, hquotient⟩
    · rw [hquotient]
      exact hpart.2
    · rw [hquotient]
      exact hpart.2

theorem isWhole_sub (ha : isWhole a) (hb : isWhole b) : isWhole (a - b) := by
  obtain ⟨i, rfl⟩ := isWhole_iff.1 ha
  obtain ⟨j, rfl⟩ := isWhole_iff.1 hb
  exact isWhole_iff.2 ⟨i - j, by push_cast; rfl⟩

/-- A sale of whole shares leaves every lot at its cost. -/
theorem consumeLots_atCost {c : Consumption} (hlots : ∀ lot ∈ lots, lot.AtCost)
    (hremaining : isWhole c.remaining) (hc : c.lots = [])
    (h : consumeLots H accountId sell lots c = .ok c') : ∀ lot ∈ c'.lots, lot.AtCost := by
  refine consumeLots_rule (Q := fun lots _ _ _ => ∀ lot ∈ lots, lot.AtCost)
    (I := fun lots remaining _ _ => (∀ lot ∈ lots, lot.AtCost) ∧ isWhole remaining) ?_ ?_
    (fun _ _ _ _ hbook _ => hbook.1) ⟨hlots, hremaining⟩ hc h
  · rintro lot rest remaining _ _ ⟨hbook, hwhole⟩ - - - -
    rw [List.forall_mem_cons] at hbook
    exact ⟨hbook.2, isWhole_sub hwhole hbook.1.whole⟩
  · rintro lot rest remaining _ _ taken ⟨hbook, hwhole⟩ hpos hpart - htaken
    rw [List.forall_mem_cons] at hbook ⊢
    refine ⟨?_, hbook.2⟩
    rw [hbook.1.consumedBasis hwhole hpos hpart.le, Except.ok.injEq] at htaken
    refine ⟨?_, isWhole_sub hbook.1.whole hwhole, ?_, hbook.1.inRange⟩
    · simp only [FifoLot.less]
      rw [hbook.1.basis, ← htaken, sub_mul]
    · have hle := hbook.1.le
      simp only [FifoLot.less]
      linarith

/-- The lots of every instrument are at their cost. -/
def FifoState.AtCost (s : FifoState) : Prop := ∀ k, ∀ lot ∈ s.lots.getD k [], lot.AtCost

theorem FifoState.AtCost.set {s : FifoState} (h : s.AtCost) {lots : List FifoLot}
    (hlots : ∀ lot ∈ lots, lot.AtCost) : ∀ j, ∀ lot ∈ (s.lots.set k lots).getD j [],
    lot.AtCost := by
  intro j
  rw [Dict.getD, Dict.get?_set]
  split
  · exact hlots
  · exact h j

/-- Without splits every lot stays at its cost. -/
theorem applyAccountEvent_atCost {s s' : FifoState} {event : AccountEvent} (hevent : event.Unsplit)
    (hs : s.AtCost) (h : applyAccountEvent H accountId s event = .ok s') : s'.AtCost := by
  cases event with
  | split split => exact absurd hevent id
  | dividend dividend =>
    simp only [applyAccountEvent, applyDividend, eq_ok] at h
    obtain ⟨_, -, _, -, _, -, _, -, _, -, rfl⟩ := h
    exact hs
  | execution x =>
    simp only [applyAccountEvent, applyExecution, eq_ok] at h
    obtain ⟨_, -, fees, -, h⟩ := h
    have hx : x.InRange := hevent
    split at h
    · unfold applyBuy at h
      split at h
      · simp only [eq_ok] at h
        obtain ⟨basis, hbasis, rfl⟩ := h
        refine hs.set (k := x.instrumentId) fun lot hlot => ?_
        rcases mem_snoc.1 hlot with hlot | rfl
        · exact hs _ lot hlot
        · exact ⟨exactDecimalMultiply_eq hbasis, hx.whole, le_rfl, hx⟩
      · rw [pure_eq_ok] at h
        subst h
        exact hs.set (hs _)
    · simp only [applySell, eq_ok] at h
      obtain ⟨c, hc, _, -, _, -, _, -, _, -, rfl⟩ := h
      exact hs.set (consumeLots_atCost (hs _) hx.whole rfl hc)

/-- **Quotients of the lot book are exact**: those of a split lot, of a position after a split and
of a partial sale whenever they are accepted; and without splits those of partial sales are
accepted. -/
theorem lot_quotients_exact (H : CorporateHashes) :
    (∀ split lot lot', isPersisted lot.quantity → splitLot H split lot = .ok lot' →
      lot'.quantity = lot.quantity * split.val.numerator / split.val.denominator) ∧
    (∀ (split : StockSplitAction) r, split.val.postSplitQuantity = .ok r →
      r = split.val.entitledQuantity * split.val.numerator / split.val.denominator) ∧
    (∀ lot consumed basis, isPersisted lot.quantity → lot.quantity ≠ 0 → isPersisted lot.costBasis →
      isPersisted consumed → consumedBasis lot consumed = .ok basis →
      basis = lot.costBasis * consumed / lot.quantity) ∧
    ∀ (accountId : Str) (states : List CanonicalOrderState) (xs : List FifoExecution)
      (events : List AccountEvent) (s : FifoState),
      (∀ state ∈ states, state.IsCanonical H.toOrderHashes) → currentExecutions H states = .ok xs →
      (∀ x ∈ xs, isPersisted (x.quantity * x.price)) →
      (∀ e ∈ events, (∃ dividend, e = .dividend dividend) ∨ ∃ x ∈ xs, e = .execution x) →
      events.foldlM (applyAccountEvent H accountId) .initial = .ok s →
      ∀ k, ∀ lot ∈ s.lots.getD k [], lot.costBasis = lot.quantity * lot.execution.price ∧
        ∀ consumed, isWhole consumed → 0 < consumed → consumed ≤ lot.quantity →
          consumedBasis lot consumed = .ok (consumed * lot.execution.price) := by
  refine ⟨fun _ _ _ => splitLot_exact, fun _ _ => postSplitQuantity_exact,
    fun _ _ _ => consumedBasis_exact, ?_⟩
  intro accountId states xs events s hstates hxs hamounts hevents h k lot hlot
  have hunsplit (e : AccountEvent) (he : e ∈ events) : e.Unsplit := by
    rcases hevents e he with ⟨dividend, rfl⟩ | ⟨x, hx, rfl⟩
    · trivial
    · obtain ⟨-, hprice, hwhole, hquantity, hpersisted⟩ := currentExecutions_bounds hstates hxs hx
      exact ⟨hwhole, hquantity, ⟨hpersisted, hprice⟩, hamounts x hx⟩
  have hcost : s.AtCost := by
    refine foldlM_invariant FifoState.AtCost ?_ (fun _ _ hlot => absurd hlot List.not_mem_nil) h
    exact fun s event s' hmem hs hstep => applyAccountEvent_atCost (hunsplit event hmem) hs hstep
  have hlot := hcost k lot hlot
  exact ⟨hlot.basis, fun _ => hlot.consumedBasis⟩

/-- The lot book of the sample account, and a split of what it holds. -/
def sampleBook : Py ((List CanonicalOrderState × List FifoExecution) × FifoState ×
    StockSplitAction) := do
  let purchase ← samplePurchase
  let sale ← sampleSale
  let xs ← currentExecutions .plain [purchase, sale]
  let s ← (xs.map AccountEvent.execution).foldlM (applyAccountEvent .plain "account") .initial
  let split ← construct {
    splitId := "s1"
    sourceActionId := "action"
    sourceRevisionId := "revision"
    sourceSha256 := "s"
    instrumentId := "i1"
    symbol := "ABC"
    numerator := 8
    denominator := 5
    entitledQuantity := 5
    effectiveAt := 4
    recordedAt := 4 }
  return (([purchase, sale], xs), s, split)

/-- Two of the five shares that are left take their price with them, and a split turns the five into
eight. -/
theorem sample_lot_quotients : ∃ (s : FifoState) (lot lot' : FifoLot) (split : StockSplitAction),
    s.lots.getD "i1" [] = [lot] ∧ lot.quantity = 5 ∧ consumedBasis lot 2 = .ok 42 ∧
      splitLot .plain split lot = .ok lot' ∧ lot'.quantity = 8 ∧
      split.val.postSplitQuantity = .ok 8 := by
  have h : (fun t => decide (
      (t.2.1.lots.getD "i1" []).map (fun lot => (lot.quantity, lot.execution.price)) = [(5, 21)] ∧
      ((t.2.1.lots.getD "i1" []).mapM (splitLot .plain t.2.2)).isOk ∧
      (∀ state ∈ t.1.1, reduceOrderLifecycle CorporateHashes.plain.toOrderHashes state.submission
        state.brokerEvents state.cancelRequest = .ok state) ∧
      (∀ x ∈ t.1.2, isPersisted (x.quantity * x.price)) ∧
      t.2.2.val.postSplitQuantity.isOk)) <$> sampleBook = .ok true := by
    decide +kernel
  simp only [sampleBook, map_eq_ok, Py.eq_ok] at h
  obtain ⟨_, ⟨purchase, -, sale, -, xs, hxs, s, hs, split, hsplit, rfl⟩, hvalues⟩ := h
  obtain ⟨hlots, hrescaled, hcanonical, hamounts, hposition⟩ := of_decide_eq_true hvalues
  obtain ⟨lot, hlot, hvalue⟩ := List.map_eq_singleton_iff.1 hlots
  obtain ⟨hquantity, hprice⟩ := Prod.mk.inj hvalue
  obtain ⟨hscaled, hafter, -, hpart⟩ := lot_quotients_exact .plain
  have hlot' : lot ∈ s.lots.getD "i1" [] := by
    rw [hlot]
    exact List.mem_singleton_self lot
  have hbook := hpart "account" _ xs _ s hcanonical hxs hamounts (fun e he => ?_) hs "i1" lot hlot'
  · have htwo := hbook.2 2 rfl two_pos (by rw [hquantity]; norm_num)
    rw [hprice, show (2 : ℚ) * 21 = 42 by norm_num] at htwo
    rw [hlot] at hrescaled
    cases hlot'' : splitLot .plain split lot with
    | error error => simp [hlot'', List.mapM_cons, Except.isOk, Except.toBool, bind,
        Except.bind] at hrescaled
    | ok lot' =>
      have hexact := hscaled split lot lot' (by rw [hquantity]; decide +kernel) hlot''
      cases hpost : split.val.postSplitQuantity with
      | error error => simp [hpost, Except.isOk, Except.toBool] at hposition
      | ok r =>
        have hr := hafter split r hpost
        rw [hsplit] at hexact hr
        rw [hquantity] at hexact
        norm_num at hexact hr
        exact ⟨s, lot, lot', split, hlot, hquantity, htwo, hlot'', hexact,
          by rw [hpost, hr]⟩
  · obtain ⟨x, hx, rfl⟩ := List.mem_map.1 he
    exact .inr ⟨x, hx, rfl⟩

end AutoQuantTrader
