import Mathlib.Algebra.Order.Field.Power
import Mathlib.Algebra.Order.Round
import Mathlib.Data.Rat.Floor
import Mathlib.Tactic.FieldSimp
import AutoQuantTrader.DecimalBounds

/-!
# When a rounded quotient is exact

Rounding to 64 digits moves a quotient by less than its sixty-third digit
(`roundToPrecision_error`). Numbers that a check has found on a coarser grid are further apart than
that, so a quotient that passes such a check has not been rounded (`divide_exact`), and a quotient
that lies on the grid is returned (`divide_of_fits`).
-/

namespace AutoQuantTrader

open Result

/-! ## The leading digit -/

theorem coefficientAt_eq (q : ℚ) (e : Int) : coefficientAt q e = q / 10 ^ e := by
  unfold coefficientAt pow10
  split
  · next he =>
    obtain ⟨n, rfl⟩ := Int.eq_ofNat_of_zero_le he
    simp
  · next he =>
    obtain ⟨n, rfl⟩ : ∃ n : Nat, e = -n := ⟨e.natAbs, by omega⟩
    simp

theorem pow_digitCount_le (fuel n : Nat) (hn : n ≠ 0) : 10 ^ digitCountUpTo fuel n ≤ 10 * n := by
  induction fuel generalizing n with
  | zero =>
    rw [digitCountUpTo]
    omega
  | succ fuel ih =>
    rw [digitCountUpTo, if_neg hn, pow_succ]
    by_cases hten : n / 10 = 0
    · have hnone : digitCountUpTo fuel (n / 10) = 0 := by
        rw [hten]
        cases fuel <;> rfl
      rw [hnone]
      omega
    · have hle := ih (n / 10) hten
      omega

theorem lt_pow_digitCount (fuel n : Nat) (hn : n < 2 ^ fuel) : n < 10 ^ digitCountUpTo fuel n := by
  induction fuel generalizing n with
  | zero =>
    rw [digitCountUpTo]
    omega
  | succ fuel ih =>
    rw [digitCountUpTo]
    split
    · next hzero => simp [hzero]
    · have hlt := ih (n / 10) (by rw [pow_succ] at hn; omega)
      rw [pow_succ]
      omega

/-- The leading digit of a number is where its exponent says. -/
theorem zpow_adjustedExponent_le (hq : q ≠ 0) : (10 : ℚ) ^ adjustedExponent q ≤ |q| := by
  have hpos (e : Int) : (0 : ℚ) < 10 ^ e := zpow_pos (by norm_num) e
  unfold adjustedExponent
  dsimp only
  split
  · have hnum : q.num.natAbs ≠ 0 := by simpa using hq
    have hlow := pow_digitCount_le (q.num.natAbs.log2 + 1) _ hnum
    have hhigh := lt_pow_digitCount (q.den.log2 + 1) q.den Nat.lt_log2_self
    generalize digitCountUpTo (q.num.natAbs.log2 + 1) q.num.natAbs = m at hlow ⊢
    generalize digitCountUpTo (q.den.log2 + 1) q.den = n at hhigh ⊢
    have habs : |q| = (q.num.natAbs : ℚ) / q.den := by
      rw [Nat.cast_natAbs, Int.cast_abs, ← Nat.abs_cast q.den, ← abs_div, Rat.num_div_den]
    rw [habs, le_div_iff₀ (by exact_mod_cast q.den_pos), sub_sub, zpow_sub₀ (by norm_num),
      zpow_add₀ (by norm_num), zpow_natCast, zpow_natCast, zpow_one, div_mul_eq_mul_div,
      div_le_iff₀ (by positivity)]
    have hlow' : (10 : ℚ) ^ m ≤ 10 * q.num.natAbs := by exact_mod_cast hlow
    have hhigh' : (q.den : ℚ) ≤ 10 ^ n := by exact_mod_cast hhigh.le
    calc (10 : ℚ) ^ m * q.den ≤ 10 * q.num.natAbs * 10 ^ n := by gcongr
      _ = _ := by ring
  · next hone =>
    rw [not_lt, coefficientAt_eq, abs_div, abs_of_pos (hpos _), le_div_iff₀ (hpos _),
      one_mul] at hone
    exact hone

/-! ## Rounding -/

theorem abs_roundHalfEven_sub_le (q : ℚ) : |(roundHalfEven q : ℚ) - q| ≤ 1 := by
  have hfloor : (q.floor : ℚ) ≤ q := Int.floor_le q
  have hceil : q < q.floor + 1 := Int.lt_floor_add_one q
  unfold roundHalfEven
  dsimp only
  rw [abs_le]
  split
  · constructor <;> linarith
  · split
    · push_cast
      constructor <;> linarith
    · split
      · constructor <;> linarith
      · push_cast
        constructor <;> linarith

theorem roundHalfEven_intCast (n : ℤ) : roundHalfEven (n : ℚ) = n := by
  simp [roundHalfEven, Rat.floor_intCast]

/-- Rounding is half-even at the 64th digit. -/
theorem roundToPrecision_eq (q : ℚ) :
    roundToPrecision q = roundHalfEven (q / 10 ^ (adjustedExponent q - 63)) * 10 ^
    (adjustedExponent q - 63) := by
  rw [roundToPrecision, coefficientAt_eq, coefficientAt_eq, zpow_neg, div_inv_eq_mul]

/-- **Rounding moves a number by less than its sixty-third decimal digit.** -/
theorem roundToPrecision_error (hq : q ≠ 0) : |roundToPrecision q - q| * pow10 63 ≤ |q| := by
  have hpos : (0 : ℚ) < 10 ^ (adjustedExponent q - 63) := zpow_pos (by norm_num) _
  have herror := abs_roundHalfEven_sub_le (q / 10 ^ (adjustedExponent q - 63))
  have hscale : (10 : ℚ) ^ (adjustedExponent q - 63) * pow10 63 = 10 ^ adjustedExponent q := by
    rw [zpow_sub₀ (by norm_num), pow10]
    norm_num
  have hsplit : roundToPrecision q - q = (roundHalfEven (q / 10 ^ (adjustedExponent q - 63)) -
      q / 10 ^ (adjustedExponent q - 63)) * 10 ^ (adjustedExponent q - 63) := by
    rw [roundToPrecision_eq, sub_mul, div_mul_cancel₀ _ hpos.ne']
  rw [hsplit, abs_mul, abs_of_pos hpos, mul_assoc, hscale]
  calc _ ≤ 1 * (10 : ℚ) ^ adjustedExponent q := by gcongr
    _ ≤ |q| := by rw [one_mul]; exact zpow_adjustedExponent_le hq

/-- An amount of the persisted range has few enough digits. -/
theorem roundToPrecision_of_fits (h : Fits 18 q) (hq : q ≠ 0) : roundToPrecision q = q := by
  have hpos : (0 : ℚ) < 10 ^ (adjustedExponent q - 63) := zpow_pos (by norm_num) _
  have hexponent : adjustedExponent q < 18 := by
    have hlt := (zpow_adjustedExponent_le hq).trans_lt h.2
    have hpow : pow10 18 = (10 : ℚ) ^ (18 : ℤ) := by norm_num [pow10]
    rw [hpow] at hlt
    exact (zpow_lt_zpow_iff_right₀ (by norm_num)).1 hlt
  obtain ⟨k, hk⟩ : ∃ k : Nat, adjustedExponent q - 63 = -(10 + k : Nat) :=
    ⟨(53 - adjustedExponent q).toNat, by omega⟩
  obtain ⟨n, hn⟩ := den_eq_one_iff.1 h.1
  have hwhole : q / 10 ^ (adjustedExponent q - 63) = ((n * 10 ^ k : ℤ) : ℚ) := by
    rw [hk, zpow_neg, div_inv_eq_mul, zpow_natCast, pow_add, ← mul_assoc, Int.cast_mul, ← hn, pow10]
    norm_num
  rw [roundToPrecision_eq, hwhole, roundHalfEven_intCast, ← hwhole, div_mul_cancel₀ _ hpos.ne']

/-! ## Quotients -/

theorem divide_error (h : deterministicDecimalDivide a b = .ok r) :
    b ≠ 0 ∧ |r - a / b| * pow10 63 ≤ |a / b| := by
  simp only [deterministicDecimalDivide, Py.eq_ok, not_or] at h
  obtain ⟨_, ⟨hb, -⟩, hr⟩ := h
  refine ⟨hb, ?_⟩
  by_cases ha : a = 0
  · rw [if_pos ha] at hr
    simp [ha, ← hr]
  · rw [if_neg ha] at hr
    rw [← hr]
    exact roundToPrecision_error (div_ne_zero ha hb)

/-- **A quotient on a grid is exact**: if `r * b` and `a` are multiples of ten to the minus `s`,
numbers of this size that differ are too far apart for rounding to have joined them. -/
theorem divide_exact {n : ℤ} (h : deterministicDecimalDivide a b = .ok r)
    (hgrid : (r * b - a) * pow10 s = n) (hb : |b| < pow10 18) (hq : |a / b| < pow10 m)
    (hdigits : m + 18 + s ≤ 63) : r = a / b := by
  obtain ⟨hne, herror⟩ := divide_error h
  have hdifference : r * b - a = (r - a / b) * b := by
    rw [sub_mul, div_mul_cancel₀ _ hne]
  have hsmall : |(n : ℚ)| < 1 := by
    rw [← hgrid, hdifference, abs_mul, abs_mul, abs_of_pos (pow10_pos s)]
    have hbound : |r - a / b| * pow10 63 < pow10 m := herror.trans_lt hq
    have hpow : pow10 m * pow10 18 * pow10 s ≤ pow10 63 := by
      rw [← pow10_add, ← pow10_add]
      exact pow10_mono hdigits
    have hle : |r - a / b| * |b| * pow10 s * pow10 63 < 1 * pow10 63 :=
      calc |r - a / b| * |b| * pow10 s * pow10 63
          = |r - a / b| * pow10 63 * |b| * pow10 s := by ring
        _ < pow10 m * pow10 18 * pow10 s := by
            refine mul_lt_mul_of_pos_right (mul_lt_mul'' hbound hb ?_ (abs_nonneg b)) (pow10_pos s)
            exact mul_nonneg (abs_nonneg _) (pow10_pos 63).le
        _ ≤ 1 * pow10 63 := by rwa [one_mul]
    exact lt_of_mul_lt_mul_right hle (pow10_pos 63).le
  have hn : n = 0 := Int.abs_lt_one_iff.1 (by exact_mod_cast hsmall)
  rw [hn, Int.cast_zero] at hgrid
  have hzero : r * b - a = 0 := (mul_eq_zero.1 hgrid).resolve_right (pow10_pos s).ne'
  rw [eq_div_iff hne]
  linarith

/-- A quotient of amounts that is itself an amount is exact. -/
theorem divide_exact_of_persisted (h : deterministicDecimalDivide a b = .ok r) {n : ℤ}
    (ha : a * pow10 20 = n) (hb : isPersisted b) (hr : isPersisted r) : r = a / b := by
  obtain ⟨i, hi⟩ := den_eq_one_iff.1 hb.1
  obtain ⟨j, hj⟩ := den_eq_one_iff.1 hr.1
  have hgrid : (r * b - a) * pow10 20 = ((j * i - n : ℤ) : ℚ) := by
    push_cast
    rw [← ha, ← hi, ← hj, show pow10 20 = pow10 10 * pow10 10 by rw [← pow10_add]]
    ring
  refine divide_exact h hgrid hb.2 (m := 19) ?_ (by decide)
  -- a quotient is at most twice what it was rounded to
  obtain ⟨-, herror⟩ := divide_error h
  have htriangle : |a / b| ≤ |r - a / b| + |r| := by
    have := abs_sub_abs_le_abs_sub (a / b) r
    rw [abs_sub_comm] at this
    linarith
  have hlarge : |r - a / b| * 2 ≤ |r - a / b| * pow10 63 :=
    mul_le_mul_of_nonneg_left (by norm_num [pow10]) (abs_nonneg _)
  have hten : pow10 19 = 10 * pow10 18 := by norm_num [pow10]
  linarith [hr.2, abs_nonneg r]

/-- A quotient that is an amount is returned. -/
theorem divide_of_fits (h : Fits 18 (a / b)) (ha : a ≠ 0) (hb : b ≠ 0) :
    deterministicDecimalDivide a b = .ok (a / b) := by
  have hne : a / b ≠ 0 := div_ne_zero ha hb
  have hunit := h.one_le_abs_mul hne
  have hsmall : ¬ |a / b| * pow10 63 < 1 := by
    have hmono : |a / b| * pow10 10 ≤ |a / b| * pow10 63 :=
      mul_le_mul_of_nonneg_left (pow10_mono (by decide)) (abs_nonneg _)
    linarith
  have hlarge : ¬ pow10 precision ≤ |a / b| := by
    rw [not_le]
    exact h.2.trans_le (pow10_mono (by decide))
  simp [deterministicDecimalDivide, ha, hb, roundToPrecision_of_fits h hne, hsmall, hlarge]

end AutoQuantTrader
