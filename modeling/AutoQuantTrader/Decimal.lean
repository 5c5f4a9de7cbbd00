import Mathlib.Data.Rat.Defs
import Mathlib.Algebra.Order.Field.Rat
import Mathlib.Algebra.BigOperators.Group.List.Basic
import AutoQuantTrader.Python

/-!
# Decimal arithmetic

The decimals of the code are exact rationals here: every function of the code compares, stores and
hashes a decimal by its canonical value, so nothing depends on trailing zeros.  What the versioned
context adds is when an operation raises.  Under 64 digits of precision with exponents in
`[-63, 63]` and the traps of the exact context, an operation returns exactly when the exact result,
written at the exponent the operation gives it, needs no rounding.

* `exactDecimalAdd`, `exactDecimalSubtract`, `exactDecimalMultiply`, `exactDecimalSum`
* `deterministicDecimalDivide`, rounding to 64 digits, half to even
* `canonicalPersistedDecimal`, the check that a value fits `NUMERIC(28, 10)`
-/

namespace AutoQuantTrader

open Result

/-! ## The exponent of a decimal -/

/-- How often `p` divides `n`, up to `fuel` times. -/
def multiplicityUpTo (p : Nat) : Nat → Nat → Nat
  | 0, _ => 0
  | fuel + 1, n => if n % p = 0 then multiplicityUpTo p fuel (n / p) + 1 else 0

/-- The exponent of `p` in the factorisation of a nonzero rational. -/
def valuation (p : Nat) (q : ℚ) : Int :=
  let count (n : Nat) : Nat := multiplicityUpTo p (n.log2 + 1) n
  (count q.num.natAbs : Int) - count q.den

/-- The exponent of the canonical representation: the coefficient has no trailing zero, and zero
has exponent zero. -/
def canonicalExponent (q : ℚ) : Int :=
  if q = 0 then 0 else min (valuation 2 q) (valuation 5 q)

/-- `10 ^ n`, as a rational. -/
def pow10 (n : Nat) : ℚ := ((10 ^ n : Nat) : ℚ)

/-- The coefficient of `q` written with exponent `e`. -/
def coefficientAt (q : ℚ) (e : Int) : ℚ :=
  if 0 ≤ e then q / pow10 e.toNat else q * pow10 (-e).toNat

/-- `precision` digits. -/
def precision : Nat := 64

/-- The exact context lets a result through: written at exponent `e` it has at most 64 digits, and
it neither overflows nor is subnormal; a zero must not be clamped. -/
def exactlyRepresentable (q : ℚ) (e : Int) : Prop :=
  if q = 0 then -126 ≤ e ∧ e ≤ 63
  else |coefficientAt q e| < pow10 precision ∧ 1 ≤ |q| * pow10 63 ∧ |q| < pow10 precision

instance (q : ℚ) (e : Int) : Decidable (exactlyRepresentable q e) := by
  unfold exactlyRepresentable; infer_instance

/-- The exact result of an operation, or the error of the exact arithmetic policy. -/
def exactResult (operation : Str) (q : ℚ) (e : Int) : Py ℚ := do
  raiseIf (¬ exactlyRepresentable q e)
    (operation ++ " exceeds the decimal64-e63-exact-v1 exact arithmetic policy")
  return q

/-- An exact operation returns its value exactly where 64 digits hold it. -/
@[simp] theorem exactResult_eq_ok :
    exactResult operation q e = .ok r ↔ exactlyRepresentable q e ∧ q = r := by
  simp [exactResult]

/-! ## The operations -/

def exactDecimalAdd (left right : ℚ) : Py ℚ :=
  exactResult "decimal addition" (left + right)
    (min (canonicalExponent left) (canonicalExponent right))

def exactDecimalSubtract (left right : ℚ) : Py ℚ :=
  exactResult "decimal subtraction" (left - right)
    (min (canonicalExponent left) (canonicalExponent right))

def exactDecimalMultiply (left right : ℚ) : Py ℚ :=
  exactResult "decimal multiplication" (left * right)
    (canonicalExponent left + canonicalExponent right)

def exactDecimalSum (values : List ℚ) : Py ℚ :=
  values.foldlM exactDecimalAdd 0

/-- The exact sum of amounts that are themselves computed on the way. -/
def exactDecimalSumOf {α : Type} (amount : α → Py ℚ) (items : List α) : Py ℚ :=
  items.foldlM (fun total item => do
    let value ← amount item
    exactDecimalAdd total value) 0

variable {left right : ℚ}

/-- An exact sum that is returned is the sum. -/
theorem exactDecimalAdd_eq (h : exactDecimalAdd left right = .ok r) : r = left + right :=
  (exactResult_eq_ok.1 h).2.symm

theorem exactDecimalSubtract_eq (h : exactDecimalSubtract left right = .ok r) : r = left - right :=
  (exactResult_eq_ok.1 h).2.symm

theorem exactDecimalMultiply_eq (h : exactDecimalMultiply left right = .ok r) : r = left * right :=
  (exactResult_eq_ok.1 h).2.symm

theorem exactDecimalSum_eq (h : exactDecimalSum values = .ok r) : r = values.sum := by
  refine foldlM_invariant_done (fun done total => total = done.sum) ?_ rfl h
  intro done a total total' _ htotal hadd
  rw [exactDecimalAdd_eq hadd, htotal, List.sum_append, List.sum_singleton]

/-! ## Division -/

/-- The number of decimal digits of `n`, up to `fuel`. -/
def digitCountUpTo : Nat → Nat → Nat
  | 0, _ => 0
  | fuel + 1, n => if n = 0 then 0 else digitCountUpTo fuel (n / 10) + 1

/-- The exponent of the leading digit of a nonzero rational. -/
def adjustedExponent (q : ℚ) : Int :=
  let digits (n : Nat) : Int := digitCountUpTo (n.log2 + 1) n
  let guess := digits q.num.natAbs - digits q.den
  if |coefficientAt q guess| < 1 then guess - 1 else guess

/-- The nearest integer, a tie going to the even one. -/
def roundHalfEven (q : ℚ) : Int :=
  let below := q.floor
  let rest := q - below
  if rest < 1 / 2 then below
  else if 1 / 2 < rest then below + 1
  else if below % 2 = 0 then below else below + 1

/-- `q` rounded to 64 significant digits. -/
def roundToPrecision (q : ℚ) : ℚ :=
  let e := adjustedExponent q - 63
  coefficientAt (roundHalfEven (coefficientAt q e)) (-e)

/-- Divide under the 64-digit half-even policy. -/
def deterministicDecimalDivide (left right : ℚ) : Py ℚ := do
  let q := if left = 0 then 0 else roundToPrecision (left / right)
  raiseIf (right = 0 ∨
      (if left = 0 then ¬ exactlyRepresentable 0 (-canonicalExponent right)
        else |left / right| * pow10 63 < 1 ∨ pow10 precision ≤ |q|))
    "decimal division violates the decimal64-e63-exact-v1 policy"
  return q

/-! ## Persisted decimals -/

/-- The value fits `NUMERIC(28, 10)`: at most ten decimals and eighteen integer digits. -/
def isPersisted (q : ℚ) : Prop := (q * pow10 10).den = 1 ∧ |q| < pow10 18

instance (q : ℚ) : Decidable (isPersisted q) := by
  unfold isPersisted; infer_instance

def canonicalPersistedDecimal (value : ℚ) (fieldName : Str) : Py ℚ := do
  raiseIf (¬ isPersisted value) (fieldName ++ " must fit NUMERIC(28, 10) exactly")
  return value

variable {value : ℚ}

@[simp] theorem canonicalPersistedDecimal_eq_ok :
    canonicalPersistedDecimal value fieldName = .ok r ↔ isPersisted value ∧ value = r := by
  simp [canonicalPersistedDecimal]

/-- `canonical_decimal_text`: the coefficient without trailing zeros, and the exponent. -/
def canonicalDecimalText (q : ℚ) : Str :=
  if q = 0 then "0"
  else
    let exponent := canonicalExponent q
    Str.ofInt (coefficientAt q exponent).num ++ "e" ++ Str.ofInt exponent

example : canonicalDecimalText (-1250) = "-125e1" := by decide +kernel

/-- `value == value.to_integral_value()`. -/
def isWhole (q : ℚ) : Prop := q.den = 1

instance (q : ℚ) : Decidable (isWhole q) := by
  unfold isWhole; infer_instance

/-- `require_amount`, with the ranges a caller can ask for. -/
def requireAmount (value : ℚ) (name : Str) (nonnegative positive whole : Bool) : Py Unit := do
  let _ ← canonicalPersistedDecimal value name
  raiseIf ((nonnegative ∧ value < 0) ∨ (positive ∧ value ≤ 0))
    (name ++ " is outside its permitted range")
  raiseIf (whole ∧ ¬ isWhole value) (name ++ " requires whole units")

/-- An amount that must not be negative is not. -/
theorem nonneg_of_requireAmount (h : requireAmount value name true positive whole = .ok u) :
    0 ≤ value := by
  simp only [requireAmount, Py.eq_ok, not_or, not_and, not_lt] at h
  obtain ⟨_, -, _, ⟨hnonneg, -⟩, -⟩ := h
  exact hnonneg trivial

/-- An amount that must be positive is. -/
theorem pos_of_requireAmount (h : requireAmount value name nonnegative true whole = .ok u) :
    0 < value := by
  simp only [requireAmount, Py.eq_ok, not_or, not_and, not_le] at h
  obtain ⟨_, -, _, ⟨-, hpos⟩, -⟩ := h
  exact hpos trivial

end AutoQuantTrader
