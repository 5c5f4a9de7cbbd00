import AutoQuantTrader.DecimalDivision

/-!
# Canonical decimals

A finite `Decimal` is a sign, a coefficient and an exponent; `canonical_decimal` strips the trailing
zeros of the coefficient.  Decimals get one canonical form exactly when they are equal as numbers,
which is why the model can compute with their values.  On amounts of the persisted range the exact
operations are total and exact, and a sum does not depend on its order.
-/

namespace AutoQuantTrader

open Result

/-- A finite `Decimal`, with the digits of `as_tuple` as a number. -/
structure DecimalTuple where
  negative : Bool
  coefficient : Nat
  exponent : Int

namespace DecimalTuple

def signed (d : DecimalTuple) : Int := if d.negative then -d.coefficient else d.coefficient

def value (d : DecimalTuple) : ℚ := d.signed * 10 ^ d.exponent

/-- The loop that drops trailing zeros, at most `fuel` times. -/
def stripZeros : Nat → DecimalTuple → DecimalTuple
  | 0, d => d
  | fuel + 1, d =>
    if d.coefficient % 10 = 0 then
      stripZeros fuel { d with coefficient := d.coefficient / 10, exponent := d.exponent + 1 }
    else d

end DecimalTuple

open DecimalTuple

/-- `canonical_decimal`.  A number has fewer trailing zeros than its value. -/
def canonicalDecimal (d : DecimalTuple) : DecimalTuple :=
  if d.coefficient = 0 then ⟨false, 0, 0⟩ else stripZeros d.coefficient d

namespace DecimalTuple

theorem value_stripZeros (fuel : Nat) (d : DecimalTuple) : (stripZeros fuel d).value = d.value := by
  induction fuel generalizing d with
  | zero => rfl
  | succ fuel ih =>
    rw [stripZeros]
    split
    next hzero =>
      have hsigned : d.signed = (if d.negative then -((d.coefficient / 10 : Nat) : Int)
          else (d.coefficient / 10 : Nat)) * 10 := by
        unfold signed
        split <;> omega
      rw [ih, value, value, hsigned, zpow_add_one₀ (by norm_num), Int.cast_mul, mul_right_comm]
      exact (mul_assoc ..).symm
    next => rfl

/-- With enough fuel no trailing zero is left. -/
theorem stripZeros_mod (fuel : Nat) (d : DecimalTuple) (hne : d.coefficient ≠ 0)
    (hfuel : d.coefficient < 10 ^ fuel) : (stripZeros fuel d).coefficient % 10 ≠ 0 := by
  induction fuel generalizing d with
  | zero => omega
  | succ fuel ih =>
    rw [stripZeros]
    split
    next hzero => exact ih _ (by simp only; omega) (by simp only; omega)
    next hzero => exact hzero

/-- A canonical decimal is the zero, or its coefficient does not end in a zero. -/
theorem canonicalDecimal_cases (d : DecimalTuple) :
    canonicalDecimal d = ⟨false, 0, 0⟩ ∨ ¬ 10 ∣ (canonicalDecimal d).signed := by
  by_cases hzero : d.coefficient = 0
  · exact .inl (if_pos hzero)
  · have hmod := stripZeros_mod _ d hzero (Nat.lt_pow_self (by decide))
    rw [canonicalDecimal, if_neg hzero]
    right
    unfold signed
    split <;> omega

/-- Canonical form keeps the value. -/
theorem value_canonicalDecimal (d : DecimalTuple) : (canonicalDecimal d).value = d.value := by
  rw [canonicalDecimal]
  split
  next hzero => simp [value, signed, hzero]
  next => exact value_stripZeros _ d

variable {d d' : DecimalTuple}

/-- A numeral without a trailing zero has the largest exponent of its value. -/
theorem exponent_le (h : d.value = d'.value) (hd : ¬ 10 ∣ d.signed) : d'.exponent ≤ d.exponent := by
  by_contra hlt
  obtain ⟨k, hk⟩ : ∃ k : Nat, d'.exponent = d.exponent + (k + 1 : Nat) :=
    ⟨(d'.exponent - d.exponent - 1).toNat, by omega⟩
  rw [value, value, hk, zpow_add₀ (by norm_num), zpow_natCast, ← mul_assoc, mul_right_comm] at h
  have hsigned : d.signed = d'.signed * 10 ^ (k + 1) := by
    exact_mod_cast mul_right_cancel₀ (zpow_ne_zero _ (by norm_num)) h
  exact hd ⟨d'.signed * 10 ^ k, by rw [hsigned]; ring⟩

theorem value_ne_zero (hd : ¬ 10 ∣ d.signed) : d.value ≠ 0 :=
  mul_ne_zero (Int.cast_ne_zero.2 fun hzero => hd (hzero ▸ dvd_zero 10))
    (zpow_ne_zero _ (by norm_num))

/-- Canonical decimals with one value are one decimal. -/
theorem eq_of_value_eq (hd : d = ⟨false, 0, 0⟩ ∨ ¬ 10 ∣ d.signed)
    (hd' : d' = ⟨false, 0, 0⟩ ∨ ¬ 10 ∣ d'.signed) (h : d.value = d'.value) : d = d' := by
  have hzero : value ⟨false, 0, 0⟩ = 0 := by simp [value, signed]
  rcases hd with rfl | hd <;> rcases hd' with rfl | hd'
  · rfl
  · exact absurd (h ▸ hzero) (value_ne_zero hd')
  · exact absurd (h.trans hzero) (value_ne_zero hd)
  · have hexponent := le_antisymm (exponent_le h.symm hd') (exponent_le h hd)
    have hsigned : d.signed = d'.signed := by
      rw [value, value, hexponent] at h
      exact_mod_cast mul_right_cancel₀ (zpow_ne_zero _ (by norm_num)) h
    obtain ⟨negative, coefficient, exponent⟩ := d
    obtain ⟨negative', coefficient', exponent'⟩ := d'
    cases negative <;> cases negative' <;> simp_all [signed]

end DecimalTuple

/-- **Decimals have one canonical form exactly when they are the same number.** -/
theorem canonicalDecimal_eq_iff (d d' : DecimalTuple) :
    canonicalDecimal d = canonicalDecimal d' ↔ d.value = d'.value := by
  rw [← value_canonicalDecimal d, ← value_canonicalDecimal d']
  exact ⟨congrArg value, eq_of_value_eq (canonicalDecimal_cases d) (canonicalDecimal_cases d')⟩

/-! ## Arithmetic on the persisted range -/

theorem abs_lt_abs_mul (ha : isPersisted a) (hb : isPersisted b) (hne : b ≠ 0) :
    |a| < |b| * pow10 28 := by
  calc |a| < pow10 18 := ha.2
    _ ≤ |b| * pow10 10 * pow10 18 :=
      le_mul_of_one_le_left (pow10_pos 18).le ((isPersisted_iff.1 hb).one_le_abs_mul hne)
    _ = |b| * pow10 28 := by rw [mul_assoc, ← pow10_add]

/-- Every quotient of amounts lies well inside the exponents of the context. -/
theorem exists_divide (ha : isPersisted a) (hb : isPersisted b) (hne : b ≠ 0) :
    ∃ q, deterministicDecimalDivide a b = .ok q := by
  simp only [deterministicDecimalDivide, Py.eq_ok, not_or]
  refine ⟨_, (), ⟨hne, ?_⟩, rfl⟩
  by_cases hzero : a = 0
  · have hlow := neg_ten_le_canonicalExponent (isPersisted_iff.1 hb)
    have hhigh := canonicalExponent_le (isPersisted_iff.1 hb)
    rw [if_pos hzero, not_not, exactlyRepresentable, if_pos rfl]
    omega
  · have hpos : 0 < |b| := abs_pos.2 hne
    have hsmall : 1 ≤ |a / b| * pow10 28 := by
      rw [abs_div, div_mul_eq_mul_div, le_div_iff₀ hpos, one_mul]
      exact (abs_lt_abs_mul hb ha hzero).le
    have hlarge : |a / b| < pow10 28 := by
      rw [abs_div, div_lt_iff₀ hpos, mul_comm]
      exact abs_lt_abs_mul ha hb hne
    have herror := roundToPrecision_error (div_ne_zero hzero hne)
    have hself : |roundToPrecision (a / b) - a / b| ≤
        |roundToPrecision (a / b) - a / b| * pow10 63 :=
      le_mul_of_one_le_right (abs_nonneg _) (one_le_pow10 63)
    have htriangle := abs_sub_abs_le_abs_sub (roundToPrecision (a / b)) (a / b)
    have hdigits : 2 * pow10 28 ≤ pow10 precision := by norm_num [pow10, precision]
    rw [if_neg hzero, if_neg hzero, not_or, not_lt, not_le]
    exact ⟨hsmall.trans (by gcongr; exact pow10_mono (by decide)), by linarith⟩

/-- A sum whose running totals keep below `10 ^ 54` is returned. -/
theorem exactDecimalSum_of_prefixes (hvalues : ∀ v ∈ values, isPersisted v)
    (hsums : ∀ part, part <+: values → |part.sum| < pow10 54) :
    exactDecimalSum values = .ok values.sum := by
  induction values using List.reverseRecOn with
  | nil => rfl
  | append_singleton values v ih =>
    rw [forall_mem_snoc] at hvalues
    have hbefore := ih hvalues.1 fun part hpart => hsums part (hpart.trans (List.prefix_append ..))
    have hfits : ∀ part, part <+: values ++ [v] → Fits 54 part.sum := fun part hpart =>
      Fits.sum (fun w hw => forall_mem_snoc.2 hvalues w (hpart.subset hw)) (hsums part hpart)
    rw [exactDecimalSum, List.foldlM_append, ← exactDecimalSum, hbefore, List.sum_append,
      List.sum_singleton]
    have hnext := hfits _ (List.prefix_refl _)
    rw [List.sum_append, List.sum_singleton] at hnext
    refine (bind_pure _).trans (exactResult_eq_ok.2 ⟨?_, rfl⟩)
    exact exactlyRepresentable_of_fits (hfits _ (List.prefix_append ..))
      ((isPersisted_iff.1 hvalues.2).mono (by decide)) hnext

/-- On the persisted range the exact operations return the exact result, division by a nonzero
divisor returns, a list that stays in the context has one sum in every order, and the canonical form
of a decimal is its value. -/
theorem decimal_policy_is_exact :
    (∀ a b, isPersisted a → isPersisted b →
      exactDecimalAdd a b = .ok (a + b) ∧ exactDecimalSubtract a b = .ok (a - b) ∧
      exactDecimalMultiply a b = .ok (a * b) ∧
      (b ≠ 0 → ∃ q, deterministicDecimalDivide a b = .ok q)) ∧
    (∀ values order : List ℚ, order.Perm values →
      (∀ r r', exactDecimalSum values = .ok r → exactDecimalSum order = .ok r' → r = r') ∧
      ((∀ v ∈ values, isPersisted v) → (∀ part, List.Subperm part values → |part.sum| < pow10 54) →
        exactDecimalSum order = .ok values.sum)) ∧
    ∀ d d' : DecimalTuple, canonicalDecimal d = canonicalDecimal d' ↔ d.value = d'.value := by
  refine ⟨fun a b ha hb => ?_,
    fun values order hperm => ⟨fun r r' h h' => ?_, fun hvalues hsums => ?_⟩,
    canonicalDecimal_eq_iff⟩
  · have ha' := isPersisted_iff.1 ha
    have hb' := isPersisted_iff.1 hb
    exact ⟨exactDecimalAdd_of_fits (ha'.mono (by decide)) (hb'.mono (by decide)),
      exactDecimalSubtract_of_fits (ha'.mono (by decide)) (hb'.mono (by decide)),
      exactDecimalMultiply_of_fits (ha'.mono (by decide)) (hb'.mono (by decide)),
      exists_divide ha hb⟩
  · rw [exactDecimalSum_eq h, exactDecimalSum_eq h', hperm.sum_eq]
  · rw [← hperm.sum_eq]
    exact exactDecimalSum_of_prefixes (fun v hv => hvalues v (hperm.subset hv)) fun part hpart =>
      hsums part (hpart.sublist.subperm.trans hperm.subperm)

theorem one_divided_by_three : ∃ q, deterministicDecimalDivide 1 3 = .ok q :=
  (decimal_policy_is_exact.1 1 3 (by decide +kernel) (by decide +kernel)).2.2.2 (by decide)

end AutoQuantTrader
