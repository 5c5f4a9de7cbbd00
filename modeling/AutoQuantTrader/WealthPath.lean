import AutoQuantTrader.Wealth

/-!
# The wealth path

A path is linked point by point.  The first point that cannot be valued blocks it for good: no later
point gets figures, and each says why.
-/

namespace AutoQuantTrader

open Result Sorting

/-- All points can be valued. -/
def Usable (points : List WealthPoint) : Prop := ∀ p ∈ points, valuationReasons p = []

instance (points : List WealthPoint) : Decidable (Usable points) :=
  inferInstanceAs (Decidable (∀ p ∈ points, _))

/-- Why there are no figures for a point: the reasons so far, and that the path is incomplete if it
was blocked before. -/
def Blocks (points : List WealthPoint) (point : WealthPoint) (r : Str) : Prop :=
  (∃ p ∈ points ++ [point], r ∈ valuationReasons p) ∨
    (r = "incomplete_return_path" ∧ ¬ Usable points)

/-- The value that a point has after the points before it. -/
structure ValueOf (points : List WealthPoint) (point : WealthPoint) (value : WealthValueFields) :
    Prop where
  pointId : value.pointId = point.val.pointId
  sequence : value.sequence = point.val.sequence
  figures : value.figures.isSome ↔ Usable (points ++ [point])
  reasons : ∀ r, r ∈ value.reasons ↔ Blocks points point r

/-- The reasons that a path has collected. -/
structure Latched (points : List WealthPoint) (st : PathState) : Prop where
  blocked : st.blocked = [] ↔ Usable points
  sound : ∀ r ∈ st.blocked, (∃ p ∈ points, r ∈ valuationReasons p) ∨
    (r = "incomplete_return_path" ∧ ¬ Usable points)
  complete : ∀ p ∈ points, ∀ r ∈ valuationReasons p, r ∈ st.blocked

theorem usable_snoc : Usable (points ++ [point]) ↔ Usable points ∧ valuationReasons point = [] :=
  forall_mem_snoc

/-- The reasons once a point is blocked. -/
theorem Latched.block (h : Latched points st) (hne : st.blocked ++ valuationReasons point ≠ []) :
    ¬ Usable (points ++ [point]) ∧ ∃ reasons, (if st.blocked = [] then
      st.blocked ++ valuationReasons point else
      st.blocked ++ valuationReasons point ++ [Str.of "incomplete_return_path"]) = reasons ∧
        reasons ≠ [] ∧ ∀ r, r ∈ reasons ↔ Blocks points point r := by
  obtain ⟨hblocked, hsound, hcomplete⟩ := h
  rw [usable_snoc, ← hblocked, ← List.append_eq_nil_iff]
  refine ⟨hne, _, rfl, by split <;> simp_all, fun r => ?_⟩
  have hmem : (∃ p ∈ points ++ [point], r ∈ valuationReasons p) ↔
      (∃ p ∈ points, r ∈ valuationReasons p) ∨ r ∈ valuationReasons point := by
    simp [or_and_right, exists_or]
  rw [Blocks, hmem]
  split <;> simp only [List.mem_append, List.mem_singleton] <;> grind

/-- **One point** is valued or blocks the path. -/
theorem Latched.step (h : Latched points st) (hlink : linkPoint st point = .ok (value, st')) :
    Latched (points ++ [point]) st' ∧ ValueOf points point value.val := by
  unfold linkPoint at hlink
  dsimp only at hlink
  split at hlink
  next nav hnil hnav =>
    simp only [eq_ok] at hlink
    obtain ⟨_, -, value, hvalue, hlink⟩ := hlink
    obtain ⟨rfl, rfl⟩ := Prod.mk.inj hlink
    rw [construct_eq_ok.1 hvalue]
    rw [List.append_eq_nil_iff, h.blocked] at hnil
    have husable := usable_snoc.2 hnil
    refine ⟨⟨iff_of_true rfl husable, by simp, fun p hp => by simp [husable p hp]⟩, rfl, rfl,
      iff_of_true rfl husable, fun r => iff_of_false (by simp) ?_⟩
    rintro (⟨p, hp, hr⟩ | hlater)
    · simp [husable p hp] at hr
    · exact hlater.2 hnil.1
  next hcase =>
    simp only [eq_ok] at hlink
    obtain ⟨value, hvalue, hlink⟩ := hlink
    have hne : st.blocked ++ valuationReasons point ≠ [] := by
      intro hnil
      cases hnav : point.val.nav with
      | none => simp [valuationReasons, hnav] at hnil
      | some nav => exact hcase nav hnil hnav
    obtain ⟨hunusable, reasons, hsame, hsome, hreasons⟩ := h.block hne
    rw [hsame] at hvalue hlink
    obtain ⟨rfl, rfl⟩ := Prod.mk.inj hlink
    rw [construct_eq_ok.1 hvalue]
    refine ⟨⟨iff_of_false hsome hunusable, fun r hr => ?_, fun p hp r hr => ?_⟩, rfl, rfl,
      iff_of_false (by simp) hunusable, fun r => ?_⟩
    · exact ((hreasons r).1 hr).imp_right fun hlater => ⟨hlater.1, hunusable⟩
    · exact (hreasons r).2 (.inl ⟨p, hp, hr⟩)
    · rw [← hreasons, sortedUnique, mem_sortOn, List.mem_dedup]

/-- Linking goes point by point. -/
theorem linkPoints_cons_eq_ok :
    linkPoints st (point :: rest) = .ok values ↔ ∃ value st' later,
      linkPoint st point = .ok (value, st') ∧ linkPoints st' rest = .ok later ∧
        value :: later = values := by
  simp [linkPoints]

/-- The values of a path from any point on. -/
theorem Latched.linkPoints (hlatched : Latched done st)
    (h : linkPoints st (before ++ point :: after) = .ok values) :
    ∃ value, values[before.length]? = some value ∧ ValueOf (done ++ before) point value.val := by
  induction before generalizing done st values with
  | nil =>
    obtain ⟨value, st', later, hlink, -, rfl⟩ := linkPoints_cons_eq_ok.1 h
    exact ⟨value, rfl, by simpa using (hlatched.step hlink).2⟩
  | cons b before ih =>
    obtain ⟨first, st', rest, hlink, hrest, rfl⟩ := linkPoints_cons_eq_ok.1 h
    simpa using ih (hlatched.step hlink).1 hrest

/-- **The wealth path latches.** The value at a point has figures exactly while it and all points
before it can be valued, and otherwise says everything that has blocked the path so far. -/
theorem wealth_path_latches (before : List WealthPoint) (point : WealthPoint)
    (after : List WealthPoint) (h : deriveWealthPath (before ++ point :: after) = .ok values) :
    ∃ value, values[before.length]? = some value ∧ ValueOf before point value.val := by
  have hinit : Latched [] ⟨[], 1, 1, none⟩ := ⟨iff_of_true rfl (by simp [Usable]), by simp, by simp⟩
  simp only [deriveWealthPath, eq_ok] at h
  obtain ⟨_, -, h⟩ := h
  exact hinit.linkPoints h

/-- A point of the sample path. -/
def samplePoint (pointId : Str) (sequence : Nat) (nav : Option ℚ) (role : WealthRole) :
    WealthPointFields :=
  ⟨pointId, sequence, nav, 0, none, role, []⟩

def sampleBaseline : WealthPoint :=
  ⟨samplePoint "baseline" 0 (some 100) .baseline, by decide +kernel⟩

def sampleGap : WealthPoint := ⟨samplePoint "gap" 1 none .valuation, by decide +kernel⟩

def sampleLater : WealthPoint := ⟨samplePoint "later" 2 (some 105) .valuation, by decide +kernel⟩

/-- After a gap a point with a value of its own has no figures. -/
theorem sample_path_latches :
    ∃ values value, deriveWealthPath [sampleBaseline, sampleGap, sampleLater] = .ok values ∧
      values[2]? = some value ∧ ValueOf [sampleBaseline, sampleGap] sampleLater value.val ∧
      value.val.figures = none := by
  have hreturns : (deriveWealthPath [sampleBaseline, sampleGap, sampleLater]).isOk = true := by
    decide +kernel
  cases h : deriveWealthPath [sampleBaseline, sampleGap, sampleLater] with
  | error e => simp [h, Except.isOk, Except.toBool] at hreturns
  | ok values =>
    obtain ⟨value, hvalue, hlatched⟩ :=
      wealth_path_latches [sampleBaseline, sampleGap] sampleLater [] h
    have hgap : ¬ Usable ([sampleBaseline, sampleGap] ++ [sampleLater]) := by decide +kernel
    exact ⟨values, value, rfl, hvalue, hlatched,
      Option.not_isSome_iff_eq_none.1 (mt hlatched.figures.1 hgap)⟩

end AutoQuantTrader
