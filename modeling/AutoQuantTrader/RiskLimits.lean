import Mathlib.Algebra.Order.BigOperators.Group.List
import Mathlib.Tactic.Linarith
import AutoQuantTrader.RiskApproval

/-!
# The limits of an approved batch

`evaluateDailyRisk` adds up cash and exposure over the whole batch, and looks at the shares of a
sale one intent at a time.  An approved batch therefore stays within its cash and its exposure
limits, and what is held covers its sales unless one instrument is sold more than once.
-/

namespace AutoQuantTrader

open Result Sorting

variable {H : EngineHashes} {policy : DailyRiskPolicy} {snapshot : AccountSnapshot}
  {batch : DailyIntentBatch} {e : DailyRiskEvidence} {evaluatedAt : Instant}
  {replaced others : List Commitment} {t t' : RiskTotals}

/-! ## Quantities by instrument -/

/-- The current price of an instrument. -/
def AccountSnapshot.price (snapshot : AccountSnapshot) (instrumentId : Str) : ℚ :=
  ((currentMark snapshot instrumentId).map (·.val.price)).getD 0

/-- The shares of an instrument that a commitment is still to buy. -/
def Commitment.buys (c : Commitment) (instrumentId : Str) : ℚ :=
  if c.val.side = .buy ∧ c.val.instrumentId = instrumentId then c.val.remainingQuantity else 0

/-- The shares of an instrument that an intent buys. -/
def OrderIntent.buys (intent : OrderIntent) (instrumentId : Str) : ℚ :=
  if intent.val.side = .buy ∧ intent.val.instrumentId = instrumentId then intent.val.quantity else 0

/-- The quantities of an instrument that the intents sell. -/
def salesOf (intents : List OrderIntent) (instrumentId : Str) : List ℚ :=
  (intents.filter fun i => i.val.side = .sell ∧ i.val.instrumentId = instrumentId).map
    (·.val.quantity)

/-- The shares of an instrument that commitments reserve for sale. -/
def reservedByOthers (others : List Commitment) (instrumentId : Str) : ℚ :=
  ((others.filter (·.val.instrumentId = instrumentId)).map (·.val.reservedSellQuantity)).sum

/-- What is held of an instrument with the live and the new purchases. -/
def exposedQuantity (snapshot : AccountSnapshot) (others : List Commitment)
    (intents : List OrderIntent) (instrumentId : Str) : ℚ :=
  snapshot.held instrumentId + (others.map (·.buys instrumentId)).sum +
    (intents.map (·.buys instrumentId)).sum

/-! ## Exposure -/

theorem price_nonneg (snapshot : AccountSnapshot) (instrumentId : Str) :
    0 ≤ snapshot.price instrumentId := by
  unfold AccountSnapshot.price
  cases currentMark snapshot instrumentId with
  | none => exact le_rfl
  | some mark =>
    have hpasses := mark.passes
    simp only [CausalMarkFields.postInit, eq_ok] at hpasses
    obtain ⟨_, -, _, -, _, -, _, hprice, -⟩ := hpasses
    exact (pos_of_requireAmount hprice).le

/-- The exposures cover a quantity of every instrument, which has a current price. -/
def RiskTotals.Covers (snapshot : AccountSnapshot) (t : RiskTotals) (q : Str → ℚ) : Prop :=
  ∀ i, 0 ≤ q i ∧ q i * snapshot.price i ≤ t.exposure.getD i 0 ∧
    (q i ≠ 0 → (currentMark snapshot i).isSome)

variable {q : Str → ℚ}

theorem RiskTotals.Covers.exposure_nonneg (h : t.Covers snapshot q) (i : Str) :
    0 ≤ t.exposure.getD i 0 :=
  (mul_nonneg (h i).1 (price_nonneg snapshot i)).trans (h i).2.1

variable {mark : CausalMark}

theorem RiskTotals.Covers.set (h : t.Covers snapshot q)
    (hmark : currentMark snapshot instrumentId = some mark) (hn : 0 ≤ n)
    (hvalue : n * mark.val.price ≤ value) (hset : t'.exposure = t.exposure.set instrumentId value) :
    t'.Covers snapshot (Function.update q instrumentId n) := by
  intro i
  by_cases hi : i = instrumentId
  · subst hi
    rw [Function.update_self, hset, Dict.getD, Dict.get?_set_self, AccountSnapshot.price, hmark]
    exact ⟨hn, hvalue, fun _ => rfl⟩
  · rw [Function.update_of_ne hi, hset, Dict.getD, Dict.get?_set_of_ne _ hi]
    exact h i

/-- A purchase adds its value to what is covered. -/
theorem RiskTotals.Covers.buy (h : t.Covers snapshot q)
    (hmark : currentMark snapshot instrumentId = some mark) (hn : 0 ≤ n)
    (hset : t'.exposure = t.exposure.set instrumentId (t.exposure.getD instrumentId 0 + n *
      mark.val.price)) :
    t'.Covers snapshot (Function.update q instrumentId (q instrumentId + n)) := by
  have hprice : snapshot.price instrumentId = mark.val.price := by
    rw [AccountSnapshot.price, hmark]; rfl
  obtain ⟨hq, hcovers, -⟩ := h instrumentId
  rw [hprice] at hcovers
  exact h.set hmark (add_nonneg hq hn) (by rw [add_mul]; linarith) hset

section loops

variable {α : Type} {step : RiskTotals → α → Py RiskTotals} {items : List α}

/-- A loop that gives no reason has passed every step, and its exposures cover what the steps
add. -/
theorem foldlM_covers (h : items.foldlM step t = .ok t') (hnil : t'.reasons = [])
    (hstep : ∀ a t t', step t a = .ok t' → t'.reasons = [] → t.reasons = [] ∧
      ∀ q, t.Covers snapshot q → t'.Covers snapshot (add q a)) :
    t.reasons = [] ∧ (∀ a ∈ items, ∃ s s', step s a = .ok s' ∧ s'.reasons = []) ∧
      ∀ q, t.Covers snapshot q → t'.Covers snapshot (items.foldl add q) := by
  refine foldlM_invariant_done (fun done (s : RiskTotals) => s.reasons = [] → t.reasons = [] ∧
    (∀ a ∈ done, ∃ s s', step s a = .ok s' ∧ s'.reasons = []) ∧
      ∀ q, t.Covers snapshot q → s.Covers snapshot (done.foldl add q)) ?_ (by simp) h hnil
  intro done a s s' _ hdone hnext hnil'
  obtain ⟨hreasons, hcovers⟩ := hstep a s s' hnext hnil'
  obtain ⟨hreasons₀, hall, hcovers₀⟩ := hdone hreasons
  simp only [List.forall_mem_append, List.forall_mem_singleton, List.foldl_append]
  exact ⟨hreasons₀, ⟨hall, s, s', hnext, hnil'⟩, fun q hq => hcovers _ (hcovers₀ q hq)⟩

theorem foldl_add (f : α → Str → ℚ) (items : List α) (q : Str → ℚ) :
    items.foldl (fun q a i => q i + f a i) q = fun i => q i + (items.map (f · i)).sum := by
  induction items generalizing q with
  | nil => simp
  | cons a rest ih =>
    funext i
    rw [List.foldl_cons, ih, List.map_cons, List.sum_cons, ← add_assoc]

end loops

theorem foldl_positions (positions : List PositionState) (i : Str) :
    positions.foldl (fun q p => Function.update q p.instrumentId p.quantity) (fun _ => (0 : ℚ)) i =
      ((lookup (positions.map fun p => (p.instrumentId, p)) i).map (·.quantity)).getD 0 := by
  induction positions using List.reverseRecOn with
  | nil => rfl
  | append_singleton positions p ih =>
    rw [List.foldl_append, List.map_append, List.map_singleton, lookup_append_singleton,
      List.foldl_cons, List.foldl_nil]
    by_cases hi : p.instrumentId = i
    · subst hi
      simp
    · rw [Function.update_of_ne (Ne.symm hi), ih, if_neg hi]

/-- A position's exposure covers its quantity. -/
theorem positionExposure_covers (h : positionExposure snapshot t position = .ok t')
    (hnil : t'.reasons = []) :
    t.reasons = [] ∧ ∀ q, t.Covers snapshot q →
      t'.Covers snapshot (Function.update q position.instrumentId position.quantity) := by
  refine ⟨(positionExposure_notes h).reasons hnil, fun q hq => ?_⟩
  unfold positionExposure at h
  dsimp only at h
  split at h
  · next hzero =>
    rw [pure_eq_ok] at h
    subst h
    intro i
    by_cases hi : i = position.instrumentId
    · rw [hi, Function.update_self, hzero, zero_mul]
      exact ⟨le_rfl, hq.exposure_nonneg _, fun hne => absurd rfl hne⟩
    · rw [Function.update_of_ne hi]
      exact hq i
  · split at h
    · rw [pure_eq_ok] at h
      subst h
      cases (List.append_eq_nil_iff.1 hnil).2
    · next mark hmark =>
      simp only [eq_ok] at h
      obtain ⟨value, hvalue, rfl⟩ := h
      have hlong : 0 ≤ position.quantity :=
        not_lt.1 (reasonIf_eq_nil.1 (List.append_eq_nil_iff.1 hnil).2)
      exact hq.set hmark hlong (exactDecimalMultiply_eq hvalue).ge rfl

theorem update_add_buys {side : Side} (q : Str → ℚ) (hside : side = .buy) :
    Function.update q instrumentId (q instrumentId + n) =
      fun i => q i + if side = .buy ∧ instrumentId = i then n else 0 := by
  funext i
  by_cases hi : i = instrumentId
  · simp [hi, hside]
  · simp [hi, Ne.symm hi]

/-- A commitment's exposure covers what it buys. -/
theorem commitmentExposure_covers {c : Commitment} (h : commitmentExposure snapshot t c = .ok t')
    (hnil : t'.reasons = []) :
    t.reasons = [] ∧ ∀ q, t.Covers snapshot q →
      t'.Covers snapshot fun i => q i + c.buys i := by
  refine ⟨(commitmentExposure_notes h).reasons hnil, fun q hq => ?_⟩
  unfold commitmentExposure at h
  split at h
  · next hside =>
    rw [pure_eq_ok] at h
    subst h
    simpa [Commitment.buys, hside] using hq
  · next hside =>
    split at h
    · rw [pure_eq_ok] at h
      subst h
      cases (List.append_eq_nil_iff.1 hnil).2
    · next mark hmark =>
      simp only [eq_ok] at h
      obtain ⟨value, hvalue, total, htotal, rfl⟩ := h
      refine update_add_buys q hside ▸ hq.buy hmark c.bounds.1 ?_
      rw [exactDecimalAdd_eq htotal, exactDecimalMultiply_eq hvalue]

/-! ## Sales -/

/-- A sale is within what is held and not reserved. -/
def SaleFits (snapshot : AccountSnapshot) (others : List Commitment) (intent : OrderIntent) :
    Prop :=
  intent.val.side = .sell → intent.val.quantity +
    reservedByOthers others intent.val.instrumentId ≤ snapshot.held intent.val.instrumentId

theorem intentAtMark_covers (hmark : currentMark snapshot intent.val.instrumentId = some mark)
    (h : intentAtMark H policy snapshot batch e evaluatedAt replaced others intent mark t = .ok t')
    (hnil : t'.reasons = []) :
    SaleFits snapshot others intent ∧ t.reasons = [] ∧ ∀ q, t.Covers snapshot q →
      t'.Covers snapshot fun i => q i + intent.buys i := by
  simp only [intentAtMark, eq_ok] at h
  obtain ⟨notional, hnotional, overNav, -, fee, hfee, ⟨t₁, hold⟩, hhold, rfl⟩ := h
  obtain ⟨hreasons, -, -, hexposure, -, hcovered⟩ :=
    intentHold_spec hhold (List.append_eq_nil_iff.1 hnil).1
  simp only [RiskTotals.addReasons_reasons, List.append_eq_nil_iff] at hreasons
  refine ⟨fun hsell => ?_, hreasons.1.1, fun q hq => ?_⟩
  · obtain ⟨position, held, hposition, hheld, hfits⟩ := hcovered hsell
    rw [reservedByOthers, ← exactDecimalSum_eq hheld, AccountSnapshot.held, hposition]
    exact le_sub_iff_add_le.1 hfits
  · cases hside : intent.val.side with
    | buy =>
      rw [hside] at hexposure
      refine update_add_buys q hside ▸ hq.buy hmark intent.quantity_bounds.1.le ?_
      rw [← exactDecimalMultiply_eq hnotional]
      exact hexposure
    | sell =>
      rw [hside] at hexposure
      intro i
      simpa [OrderIntent.buys, hside, RiskTotals.addReasons, hexposure] using hq i

/-- An intent without reasons is covered, and its sale fits. -/
theorem evaluateIntent_covers
    (h : evaluateIntent H policy snapshot batch e evaluatedAt replaced others t intent = .ok t')
    (hnil : t'.reasons = []) :
    SaleFits snapshot others intent ∧ t.reasons = [] ∧ ∀ q, t.Covers snapshot q →
      t'.Covers snapshot fun i => q i + intent.buys i := by
  have hnone {reason : Str} (hnext : t.addReasons [reason] = t') : False := by
    subst hnext
    cases (List.append_eq_nil_iff.1 hnil).2
  unfold evaluateIntent at h
  split at h
  · exact (hnone (pure_eq_ok.1 h)).elim
  · next mark hmark =>
    split at h
    · exact (hnone (pure_eq_ok.1 h)).elim
    · exact intentAtMark_covers hmark h hnil

/-- The sales that the evaluation does not add up: an instrument that is not sold now keeps what its
commitments reserve, and one that is sold more than once is covered by what is held. -/
def SalesCovered (snapshot : AccountSnapshot) (others : List Commitment)
    (intents : List OrderIntent) : Prop :=
  (∀ c ∈ others, salesOf intents c.val.instrumentId = [] →
    reservedByOthers others c.val.instrumentId ≤ snapshot.held c.val.instrumentId) ∧
  ∀ x ∈ intents, 1 < (salesOf intents x.val.instrumentId).length →
    (salesOf intents x.val.instrumentId).sum + reservedByOthers others x.val.instrumentId ≤
      snapshot.held x.val.instrumentId

instance (snapshot : AccountSnapshot) (others : List Commitment) (intents : List OrderIntent) :
    Decidable (SalesCovered snapshot others intents) :=
  inferInstanceAs (Decidable (_ ∧ _))

variable {intents : List OrderIntent}

theorem mem_salesOf :
    quantity ∈ salesOf intents i ↔ ∃ x ∈ intents, (x.val.side = .sell ∧ x.val.instrumentId = i) ∧
      x.val.quantity = quantity := by
  simp [salesOf, and_assoc]

theorem sales_fit_iff (hheld : ∀ i, 0 ≤ snapshot.held i)
    (hfits : ∀ x ∈ intents, SaleFits snapshot others x) :
    (∀ i, (salesOf intents i).sum + reservedByOthers others i ≤ snapshot.held i) ↔
      SalesCovered snapshot others intents := by
  refine ⟨fun h => ⟨fun c _ hnone => ?_, fun x _ _ => h _⟩, fun ⟨hidle, htogether⟩ i => ?_⟩
  · simpa [hnone] using h c.val.instrumentId
  · match hsales : salesOf intents i with
    | [] =>
      rw [List.sum_nil, zero_add]
      by_cases hothers : others.filter (·.val.instrumentId = i) = []
      · rw [reservedByOthers, hothers]
        exact hheld i
      · obtain ⟨c, hc⟩ := List.exists_mem_of_ne_nil _ hothers
        obtain ⟨hmem, rfl⟩ : c ∈ others ∧ c.val.instrumentId = i := by simpa using hc
        exact hidle c hmem hsales
    | [quantity] =>
      obtain ⟨x, hx, ⟨hsell, rfl⟩, rfl⟩ := mem_salesOf.1 (hsales ▸ List.mem_singleton.2 rfl)
      simpa using hfits x hx hsell
    | quantity :: next :: rest =>
      obtain ⟨x, hx, ⟨-, rfl⟩, -⟩ := mem_salesOf.1 (hsales ▸ List.mem_cons_self)
      have hmany : 1 < (salesOf intents x.val.instrumentId).length := by simp [hsales]
      exact hsales ▸ htogether x hx hmany

/-! ## The whole batch -/

/-- The shares, the cash and the exposure of a batch are within their limits. -/
structure DailyLimits (policy : DailyRiskPolicy) (snapshot : AccountSnapshot)
    (batch : DailyIntentBatch) (replaced others : List Commitment) (decision : DailyRiskDecision) :
    Prop where
  shares : ∀ i, (salesOf batch.intents i).sum + reservedByOthers others i ≤ snapshot.held i
  cash : (decision.reservedCashByIntent.map (·.2)).sum ≤
    snapshot.availableCash + (replaced.map (·.val.reservedCash)).sum
  priced : ∀ i, exposedQuantity snapshot others batch.intents i ≠ 0 →
    (currentMark snapshot i).isSome
  exposure : ¬ (batch.target.reduceOnlyScope ∧ ∀ x ∈ batch.intents, x.val.side = .sell) →
    ∃ nav, snapshot.nav = some nav ∧
      (∀ i, exposedQuantity snapshot others batch.intents i * snapshot.price i ≤
        nav * policy.val.maxSymbolNavFraction) ∧
      ∀ is : List Str, is.Nodup →
        (is.map fun i => exposedQuantity snapshot others batch.intents i * snapshot.price i).sum ≤
          nav * policy.val.maxGrossNavFraction

theorem sum_getD_le {d : Dict Str ℚ} (hd : ∀ i, 0 ≤ d.getD i 0) {is : List Str} (his : is.Nodup) :
    (is.map (d.getD · 0)).sum ≤ d.values.sum := by
  have hnodup : (is ++ d.keys.filter (· ∉ is)).Nodup :=
    his.append (d.nodup_keys.filter _) fun i hi hrest => by simp [hi] at hrest
  have hcover (i : Str) (hi : i ∈ d.keys) : i ∈ is ++ d.keys.filter (· ∉ is) := by
    by_cases hmem : i ∈ is <;> simp [hi, hmem]
  have hsum := Dict.sum_getD_eq_sumBy (v := 0) (f := id) rfl hnodup hcover
  rw [List.map_append, List.sum_append] at hsum
  refine le_trans (le_add_of_nonneg_right (List.sum_nonneg fun x hx => ?_)) hsum.le
  obtain ⟨i, -, rfl⟩ := List.mem_map.1 hx
  exact hd i

theorem maxSymbolNavFraction_pos (policy : DailyRiskPolicy) :
    0 < policy.val.maxSymbolNavFraction := by
  have hpasses := policy.passes
  simp only [DailyRiskPolicyFields.postInit, requireFraction, eq_ok] at hpasses
  obtain ⟨_, -, _, -, _, -, _, -, _, ⟨_, hfraction, -⟩, -⟩ := hpasses
  exact pos_of_requireAmount hfraction

/-- **An approved batch is within its limits exactly when its sales are covered**: cash and exposure
always are, and so is an instrument that is sold once. -/
theorem approved_within_limits_iff {decision : DailyRiskDecision}
    (h : evaluateDailyRisk H policy snapshot batch e evaluatedAt = .ok decision)
    (happroved : decision.approved = true) :
    DailyLimits policy snapshot batch
        (replacedCommitments snapshot (batch.intents.map (·.val.intentId)) e.phase)
        (otherCommitments snapshot (batch.intents.map (·.val.intentId)) e.phase) decision ↔
      SalesCovered snapshot
        (otherCommitments snapshot (batch.intents.map (·.val.intentId)) e.phase) batch.intents := by
  simp only [evaluateDailyRisk, eq_ok] at h
  obtain ⟨t₁, ht₁, t₂, ht₂, t₃, ht₃, limits, hlimits, rfl⟩ := h
  rw [decide_eq_true_eq] at happroved
  obtain ⟨hreasons₃, rfl⟩ := List.append_eq_nil_iff.1 happroved
  obtain ⟨hreasons₂, hpassed, hcovers₃⟩ :=
    foldlM_covers ht₃ hreasons₃ fun _ _ _ h hnil => (evaluateIntent_covers h hnil).2
  obtain ⟨hreasons₁, -, hcovers₂⟩ :=
    foldlM_covers ht₂ hreasons₂ fun _ _ _ => commitmentExposure_covers
  obtain ⟨hscope, -, hcovers₁⟩ := foldlM_covers ht₁ hreasons₁ fun _ _ _ => positionExposure_covers
  replace hcovers₁ := hcovers₁ (fun _ => 0) fun i =>
    ⟨le_rfl, by simp [Dict.getD], fun h => absurd rfl h⟩
  rw [show _ = snapshot.held from funext (foldl_positions snapshot.positions)] at hcovers₁
  replace hcovers₃ := hcovers₃ _ (hcovers₂ _ hcovers₁)
  rw [foldl_add, foldl_add] at hcovers₃
  obtain ⟨hcash, hexposure⟩ := batchLimits_spec hlimits
  simp only [scopeReasons, List.append_eq_nil_iff, reasonIf_eq_nil, not_or, not_forall,
    not_le] at hscope
  obtain ⟨⟨⟨⟨⟨⟨⟨⟨⟨-, ⟨nav, hnav, hpos⟩, -⟩, -⟩, -⟩, -⟩, -⟩, -⟩, -⟩, -⟩, -⟩ := hscope
  rw [← sales_fit_iff (fun i => (hcovers₁ i).1) fun x hx => by
    obtain ⟨s, s', hstep, hnil⟩ := hpassed x hx
    exact (evaluateIntent_covers hstep hnil).1]
  refine ⟨fun hlimits => hlimits.shares, fun hshares =>
    ⟨hshares, ?_, fun i => (hcovers₃ i).2.2, ?_⟩⟩
  · rw [if_pos happroved]
    exact ((sortOn_perm _ _).map _).sum_eq.trans_le hcash
  · intro hrepair
    obtain ⟨hgross, hsymbol⟩ := hexposure nav hnav hrepair
    refine ⟨nav, hnav, fun i => (hcovers₃ i).2.1.trans ?_, fun is his => ?_⟩
    · cases hget : t₃.exposure.get? i with
      | none =>
        rw [Dict.getD, hget]
        exact (mul_pos hpos (maxSymbolNavFraction_pos policy)).le
      | some amount =>
        rw [Dict.getD, hget]
        exact hsymbol amount (Dict.mem_values.2 ⟨i, hget⟩)
    · exact (List.sum_le_sum fun i _ => (hcovers₃ i).2.1).trans
        ((sum_getD_le hcovers₃.exposure_nonneg his).trans hgross)

/-! ## One position, sold twice -/

/-- Ten shares at a price of a hundred, and a policy that lets a batch sell them twice. -/
def sampleSales (sales : List (Str × ℚ)) :
    Py (DailyRiskPolicy × AccountSnapshot × DailyIntentBatch × DailyRiskEvidence) := do
  let H := EngineHashes.plain
  let policy ← construct ⟨"synthetic", 1000, 1, 1, 1, 1, 0, 0, 4, 2, 8, -1 / 50, 1 / 10,
    .syntheticOracle⟩
  let mark ← construct ⟨"mark", "i1", "SPY", 100, 719163, 0, 0, "bar", .current, .rawClose⟩
  let snapshot : AccountSnapshot := {
    accountId := "account", point := ⟨1, 1, 0, 5⟩, stateSha256 := "state"
    positions := [⟨"i1", "SPY", 10, 1000, [], 0, 0, 0, 0⟩], commitments := [], marks := [mark]
    tradeDateCash := 1000, settledCash := 1000, tradeReceivable := 0, tradePayable := 0
    dividendReceivable := 0, buyReserve := 0, sellFeeReserve := 0, availableCash := 1000
    marketValue := some 1000, nav := some 2000, grossRealizedPnl := 0, fees := 0
    dividendIncome := 0, unrealizedPnl := some 0, netExternalFlow := 2000,
    journalSha256 := "journal"
    orderSha256 := "orders", valuationReasons := [], lastKnownNav := none, halted := false }
  let target : DailyTarget :=
    ⟨"target", ⟨"trigger", 719163, 719164, 0, .completeMarket, "source", 1⟩,
    "configuration", [], 1, 2, true, false, ""⟩
  let trigger ← dailyDecisionTrigger H target.trigger
  let intents ← sales.mapM fun sale =>
    dailyIntent H target snapshot ⟨"strategy", "1", "pin"⟩ trigger sale.1 "i1" mark (-sale.2)
  return (policy, snapshot, ⟨"batch", target, H.snapshot snapshot, intents, []⟩,
    ⟨H.snapshot snapshot, .decision, 0, 719163, 719164, ⟨"engine", "1", "pin"⟩,
      some 0, some 0, [], true, true, true, true, true, true, true, []⟩)

/-- Two sales of ten shares each are approved against a position of ten. -/
theorem sold_twice_approved : ∃ (policy : DailyRiskPolicy) (snapshot : AccountSnapshot)
    (batch : DailyIntentBatch) (e : DailyRiskEvidence) (decision : DailyRiskDecision),
    evaluateDailyRisk .plain policy snapshot batch e 0 = .ok decision ∧
      decision.approved = true ∧ (salesOf batch.intents "i1").sum = 20 ∧
      snapshot.held "i1" = 10 := by
  have h : (sampleSales [("first", 10), ("second", 10)] >>= fun s =>
      evaluateDailyRisk .plain s.1 s.2.1 s.2.2.1 s.2.2.2 0 >>= fun decision =>
      return decide (decision.approved = true ∧ (salesOf s.2.2.1.intents "i1").sum = 20 ∧
        s.2.1.held "i1" = 10)) = .ok true := by
    decide +kernel
  simp only [eq_ok, decide_eq_true_eq] at h
  obtain ⟨⟨policy, snapshot, batch, e⟩, -, decision, hdecision, hsold⟩ := h
  exact ⟨policy, snapshot, batch, e, decision, hdecision, hsold⟩

/-- Sales of four and of six shares are approved, and they are covered. -/
theorem sold_in_parts_within_limits : ∃ (policy : DailyRiskPolicy) (snapshot : AccountSnapshot)
    (batch : DailyIntentBatch) (e : DailyRiskEvidence) (decision : DailyRiskDecision),
    evaluateDailyRisk .plain policy snapshot batch e 0 = .ok decision ∧
      decision.approved = true ∧ DailyLimits policy snapshot batch
        (replacedCommitments snapshot (batch.intents.map (·.val.intentId)) e.phase)
        (otherCommitments snapshot (batch.intents.map (·.val.intentId)) e.phase) decision := by
  have h : (sampleSales [("first", 4), ("second", 6)] >>= fun s =>
      evaluateDailyRisk .plain s.1 s.2.1 s.2.2.1 s.2.2.2 0 >>= fun decision =>
      return decide (decision.approved = true ∧ SalesCovered s.2.1
        (otherCommitments s.2.1 (s.2.2.1.intents.map (·.val.intentId)) s.2.2.2.phase)
        s.2.2.1.intents)) = .ok true := by
    decide +kernel
  simp only [eq_ok, decide_eq_true_eq] at h
  obtain ⟨⟨policy, snapshot, batch, e⟩, -, decision, hdecision, happroved, hcovered⟩ := h
  exact ⟨policy, snapshot, batch, e, decision, hdecision, happroved,
    (approved_within_limits_iff hdecision happroved).2 hcovered⟩

end AutoQuantTrader
