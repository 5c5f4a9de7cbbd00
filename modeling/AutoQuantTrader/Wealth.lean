import AutoQuantTrader.Decimal

/-!
# Flow-neutral wealth

The wealth path links the net asset values of a run into growth, wealth and drawdown.  A paired
capital transfer is no return; a point that cannot be valued makes every later point undefined.
Derived ratios are rounded to 64 digits, half to even.
-/

namespace AutoQuantTrader

open Result Sorting

/-- `tuple(sorted(set(values)))`. -/
def sortedUnique (values : List Str) : List Str := sortOn id values.dedup

/-! ## Derived arithmetic -/

/-- A result of the derived context: rounded, and neither too large nor subnormal. -/
def derivedResult (q : ℚ) : Py ℚ :=
  if q = 0 then return 0
  else do
    let r := roundToPrecision q
    throwIf (adjustedExponent q < -999999 ∨ 999999 < adjustedExponent r) .arithmeticError
    return r

def derivedAdd (left right : ℚ) : Py ℚ := derivedResult (left + right)

def derivedSubtract (left right : ℚ) : Py ℚ := derivedResult (left - right)

def derivedMultiply (left right : ℚ) : Py ℚ := derivedResult (left * right)

def derivedDivide (left right : ℚ) : Py ℚ := do
  throwIf (right = 0) .arithmeticError
  derivedResult (left / right)

/-! ## Points and values -/

inductive WealthRole where
  | baseline | valuation | preFlow | postFlow
deriving DecidableEq

def requireWealthText (value fieldName : Str) : Py Unit := do
  raiseIf (value = "" ∨ ¬ isTrimmed value) (fieldName ++ " must be nonempty trimmed text")
  raiseIf (∃ c ∈ value.chars, c.toNat < 32) (fieldName ++ " cannot contain control characters")

structure WealthPointFields where
  pointId : Str
  sequence : Nat
  nav : Option ℚ
  signedFlow : ℚ
  flowPairId : Option Str
  role : WealthRole
  reasons : List Str

/-- `_derived_nav`: a value of at most 64 digits in the range of the derived context. -/
def requireDerivedNav (nav : Option ℚ) : Py Unit :=
  match nav with
  | none => pure ⟨⟩
  | some q => raiseIf (q ≠ 0 ∧ (pow10 precision ≤ |coefficientAt q (canonicalExponent q)| ∨
        ¬ (-999999 ≤ adjustedExponent q ∧ adjustedExponent q ≤ 999999)))
      "wealth NAV exceeds personal-derived-decimal64-half-even-v1 precision/range"

def requireFlowPair (role : WealthRole) (flowPairId : Option Str) : Py Unit :=
  if role = .preFlow ∨ role = .postFlow then
    match flowPairId with
    | none => throw (.valueError "flow boundary requires a flow_pair_id")
    | some pair => requireWealthText pair "flow_pair_id"
  else raiseIf (flowPairId ≠ none) "only flow boundaries can carry a flow_pair_id"

def WealthPointFields.postInit (p : WealthPointFields) : Py Unit := do
  requireWealthText p.pointId "point_id"
  requireDerivedNav p.nav
  let _ ← canonicalPersistedDecimal p.signedFlow "wealth signed flow"
  p.reasons.forM (requireWealthText · "reason")
  requireFlowPair p.role p.flowPairId
  raiseIf (p.role ≠ .postFlow ∧ p.signedFlow ≠ 0) "only post_flow can carry a signed flow"

abbrev WealthPoint := Checked WealthPointFields.postInit

/-- `WealthPoint(...)`: the reasons are kept sorted and unique. -/
def createWealthPoint (p : WealthPointFields) : Py WealthPoint :=
  construct { p with reasons := sortedUnique p.reasons }

structure WealthFigures where
  (growth wealth drawdown : ℚ)

/-- The figures of a point, or the reasons why there are none. -/
structure WealthValueFields where
  pointId : Str
  sequence : Nat
  figures : Option WealthFigures
  reasons : List Str

def WealthValueFields.postInit (v : WealthValueFields) : Py Unit := do
  requireWealthText v.pointId "point_id"
  v.reasons.forM (requireWealthText · "reason")
  match v.figures with
  | none => raiseIf (v.reasons = []) "undefined wealth must have all null values and reasons"
  | some f => do
    raiseIf (v.reasons ≠ []) "defined wealth cannot carry unusable-valuation reasons"
    raiseIf (f.growth ≤ 0 ∨ f.wealth ≤ 0 ∨ ¬ (0 ≤ f.drawdown ∧ f.drawdown ≤ 1))
      "defined wealth requires positive growth/wealth and bounded drawdown"

abbrev WealthValue := Checked WealthValueFields.postInit

/-! ## The path -/

/-- A post-flow value is the pre-flow value and the flow. -/
def checkFlowNav (before after : Option ℚ) (signedFlow : ℚ) : Py Unit :=
  match before, after with
  | some nav, some following => do
    let expected ← derivedAdd nav signedFlow
    raiseIf (following ≠ expected) "post-flow NAV must equal pre-flow NAV plus signed flow"
  | _, _ => pure ⟨⟩

/-- The flow boundaries of a path, from a point on; `pairs` are the transfers already seen. -/
def checkFlows (pairs : List (Option Str)) (previous : Option WealthRole) :
    List WealthPoint → Py Unit
  | [] => pure ⟨⟩
  | point :: rest => do
    if point.val.role = .preFlow then
      match rest with
      | [] => throw (.valueError "pre_flow must be immediately followed by post_flow")
      | following :: _ => do
        raiseIf (following.val.role ≠ .postFlow)
          "pre_flow must be immediately followed by post_flow"
        raiseIf (point.val.flowPairId ≠ following.val.flowPairId)
          "adjacent flow boundaries must have matching pair IDs"
        raiseIf (point.val.flowPairId ∈ pairs) "flow pair IDs cannot be reused"
        checkFlowNav point.val.nav following.val.nav following.val.signedFlow
        checkFlows (point.val.flowPairId :: pairs) (some .preFlow) rest
    else do
      raiseIf (point.val.role = .postFlow ∧ previous ≠ some .preFlow)
        "post_flow must immediately follow pre_flow"
      checkFlows pairs (some point.val.role) rest

def validatePath (points : List WealthPoint) : Py Unit := do
  raiseIf (points = []) "wealth path requires a nonempty immutable tuple"
  raiseIf (points.head?.map (·.val.role) ≠ some .baseline ∨
      ∃ point ∈ points.tail, point.val.role = .baseline)
    "wealth path requires exactly one baseline as its first point"
  raiseIf (¬ (points.map (·.val.sequence)).IsChain (· < ·))
    "wealth point sequences must be strictly increasing"
  raiseIf (¬ (points.map (·.val.pointId)).Nodup) "wealth point IDs must be unique"
  checkFlows [] none points

/-- Why a point cannot be valued. -/
def valuationReasons (point : WealthPoint) : List Str :=
  match point.val.nav with
  | none => point.val.reasons ++ [match point.val.role with
      | .preFlow => Str.of "missing_pre_flow_valuation"
      | .postFlow => Str.of "missing_post_flow_valuation"
      | _ => Str.of "missing_valuation"]
  | some nav => if nav ≤ 0 then point.val.reasons ++ [Str.of "nonpositive_nav"]
      else point.val.reasons

/-- Where the path has got to: the reasons that block it, the wealth, its peak and the last
value. -/
structure PathState where
  blocked : List Str
  (wealth peak : ℚ)
  previous : Option ℚ

/-- `except DecimalException`: an arithmetic failure of the path is a `ValueError`. -/
def wealthArithmetic {α : Type} (x : Py α) : Py α :=
  match x with
  | .error .arithmeticError =>
    .error (.valueError "wealth arithmetic violates personal-derived-decimal64-half-even-v1")
  | result => result

/-- The growth since the previous point; neither the baseline nor a transfer is a return. -/
def growthSince (point : WealthPoint) (nav : ℚ) (previous : Option ℚ) : Py ℚ :=
  match previous with
  | none => return 1
  | some prior => if point.val.role = .postFlow then return 1 else derivedDivide nav prior

def linkFigures (st : PathState) (point : WealthPoint) (nav : ℚ) : Py (WealthFigures × ℚ) := do
  let growth ← growthSince point nav st.previous
  let wealth ← derivedMultiply st.wealth growth
  let peak := max st.peak wealth
  let ratio ← derivedDivide wealth peak
  let drawdown ← derivedSubtract 1 ratio
  return (⟨growth, wealth, drawdown⟩, peak)

/-- The value of one point and the state of the path after it. -/
def linkPoint (st : PathState) (point : WealthPoint) : Py (WealthValue × PathState) := do
  let blocked := st.blocked ++ valuationReasons point
  match blocked, point.val.nav with
  | [], some nav => do
    let (figures, peak) ← wealthArithmetic (linkFigures st point nav)
    let value ← construct ⟨point.val.pointId, point.val.sequence, some figures, []⟩
    return (value, ⟨[], figures.wealth, peak, some nav⟩)
  | blocked, _ => do
    let blocked := if st.blocked = [] then blocked
      else blocked ++ [Str.of "incomplete_return_path"]
    let value ← construct ⟨point.val.pointId, point.val.sequence, none, sortedUnique blocked⟩
    return (value, { st with blocked })

def linkPoints (st : PathState) : List WealthPoint → Py (List WealthValue)
  | [] => return []
  | point :: rest => do
    let (value, st) ← linkPoint st point
    let values ← linkPoints st rest
    return value :: values

/-- Check a path and link its points one after the other. -/
def deriveWealthPath (points : List WealthPoint) : Py (List WealthValue) := do
  validatePath points
  linkPoints ⟨[], 1, 1, none⟩ points

end AutoQuantTrader
