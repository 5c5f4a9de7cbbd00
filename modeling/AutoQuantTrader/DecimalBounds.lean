import Mathlib.Algebra.Order.BigOperators.Group.List
import Mathlib.Data.Rat.Lemmas
import Mathlib.Tactic.Linarith
import Mathlib.Tactic.Positivity
import AutoQuantTrader.Decimal

/-!
# When exact arithmetic goes through

An exact operation raises when its result needs more than 64 digits.  An amount that `Fits` has at
most ten decimals and a bounded number of integer digits; sums, differences and products of such
amounts are far from the limit, so the operations return them.
-/

namespace AutoQuantTrader

open Result

/-! ## Powers of ten -/

theorem pow10_pos (n : Nat) : 0 < pow10 n := by
  rw [pow10]
  positivity

theorem pow10_add (m n : Nat) : pow10 (m + n) = pow10 m * pow10 n := by
  simp only [pow10, pow_add, Nat.cast_mul]

theorem pow10_mono (h : m ≤ n) : pow10 m ≤ pow10 n := by
  have hle : 10 ^ m ≤ 10 ^ n := Nat.pow_le_pow_right (by decide) h
  simp only [pow10]
  exact_mod_cast hle

theorem one_le_pow10 (n : Nat) : 1 ≤ pow10 n := by
  have h := pow10_mono (Nat.zero_le n)
  simpa [pow10] using h

/-! ## Amounts -/

/-- At most ten decimals, and at most `digits` digits before them. -/
def Fits (digits : Nat) (q : ℚ) : Prop := (q * pow10 10).den = 1 ∧ |q| < pow10 digits

variable {q : ℚ}

theorem isPersisted_iff : isPersisted q ↔ Fits 18 q := Iff.rfl

/-- An amount of ten decimals is a number of its smallest units. -/
theorem den_eq_one_iff : (q * pow10 10).den = 1 ↔ ∃ n : ℤ, q * pow10 10 = n :=
  ⟨fun h => ⟨(q * pow10 10).num, ((Rat.den_eq_one_iff _).1 h).symm⟩,
    fun ⟨n, hn⟩ => by rw [hn, Rat.den_intCast]⟩

namespace Fits

variable {d : Nat} {a : ℚ}

theorem mono (h : Fits d a) (hde : d ≤ e) : Fits e a := ⟨h.1, h.2.trans_le (pow10_mono hde)⟩

theorem of_abs_lt (h : Fits d a) (hlt : |a| < pow10 e) : Fits e a := ⟨h.1, hlt⟩

theorem zero : Fits d 0 := by
  refine ⟨by rw [zero_mul]; rfl, ?_⟩
  rw [abs_zero]
  exact pow10_pos d

theorem neg (h : Fits d a) : Fits d (-a) := by
  refine ⟨?_, by rw [abs_neg]; exact h.2⟩
  rw [neg_mul, Rat.den_neg_eq_den]
  exact h.1

theorem add (ha : Fits d a) (hb : Fits d b) : Fits (d + 1) (a + b) := by
  obtain ⟨m, hm⟩ := den_eq_one_iff.1 ha.1
  obtain ⟨n, hn⟩ := den_eq_one_iff.1 hb.1
  refine ⟨den_eq_one_iff.2 ⟨m + n, by rw [add_mul, hm, hn, Int.cast_add]⟩, ?_⟩
  have hsum : |a + b| ≤ |a| + |b| := abs_add_le a b
  have hten : pow10 (d + 1) = pow10 d * 10 := by
    rw [pow10_add]
    norm_num [pow10]
  have hpos := pow10_pos d
  linarith [ha.2, hb.2]

theorem sub (ha : Fits d a) (hb : Fits d b) : Fits (d + 1) (a - b) := by
  rw [sub_eq_add_neg]
  exact ha.add hb.neg

/-- A nonzero amount is at least its smallest unit. -/
theorem one_le_abs_mul (h : Fits d a) (hne : a ≠ 0) : 1 ≤ |a| * pow10 10 := by
  obtain ⟨n, hn⟩ := den_eq_one_iff.1 h.1
  have hn' : n ≠ 0 := by
    rintro rfl
    rw [Int.cast_zero] at hn
    rcases mul_eq_zero.1 hn with hzero | hzero
    · exact hne hzero
    · exact (pow10_pos 10).ne' hzero
  have habs : |a| * pow10 10 = |(n : ℚ)| := by
    rw [← hn, abs_mul, abs_of_pos (pow10_pos 10)]
  rw [habs]
  have hint : (1 : ℤ) ≤ |n| := Int.one_le_abs hn'
  exact_mod_cast hint

end Fits

/-! ## The exponent of an amount -/

theorem pow_multiplicityUpTo_dvd (p fuel n : Nat) : p ^ multiplicityUpTo p fuel n ∣ n := by
  induction fuel generalizing n with
  | zero => simp [multiplicityUpTo]
  | succ fuel ih =>
    rw [multiplicityUpTo]
    split
    · next hmod =>
      have hdvd : p ∣ n := Nat.dvd_of_mod_eq_zero hmod
      have hstep := Nat.mul_dvd_mul (ih (n / p)) (Nat.dvd_refl p)
      rwa [← pow_succ, Nat.div_mul_cancel hdvd] at hstep
    · simp

variable {d : Nat}

/-- The denominator of an amount divides its smallest unit. -/
theorem den_dvd_of_fits (h : Fits d q) : q.den ∣ 10 ^ 10 := by
  obtain ⟨n, hn⟩ := den_eq_one_iff.1 h.1
  have hq : q = Rat.divInt n ((10 ^ 10 : Nat) : ℤ) := by
    rw [Rat.divInt_eq_div, ← hn, Int.cast_natCast]
    exact (mul_div_cancel_right₀ q (pow10_pos 10).ne').symm
  have hdvd := Rat.den_dvd n ((10 ^ 10 : Nat) : ℤ)
  rw [← hq] at hdvd
  exact_mod_cast hdvd

/-- Two and five divide the smallest unit ten times. -/
theorem le_ten_of_pow_dvd (hp : p = 2 ∨ p = 5) (hk : p ^ k ∣ n) (hn : n ∣ 10 ^ 10) : k ≤ 10 := by
  by_contra hlt
  have heleven : p ^ 11 ∣ p ^ k := Nat.pow_dvd_pow p (by omega)
  have hdvd : p ^ 11 ∣ 10 ^ 10 := heleven.trans (hk.trans hn)
  rcases hp with rfl | rfl
  · revert hdvd
    decide
  · revert hdvd
    decide

theorem neg_ten_le_valuation (hp : p = 2 ∨ p = 5) (h : Fits d q) : -10 ≤ valuation p q := by
  have hden := le_ten_of_pow_dvd hp
    (pow_multiplicityUpTo_dvd p (q.den.log2 + 1) q.den) (den_dvd_of_fits h)
  unfold valuation
  dsimp only
  omega

/-- A value of ten decimal places needs no smaller exponent. -/
theorem neg_ten_le_canonicalExponent (h : Fits d q) : -10 ≤ canonicalExponent q := by
  unfold canonicalExponent
  split
  · decide
  · exact le_min (neg_ten_le_valuation (.inl rfl) h) (neg_ten_le_valuation (.inr rfl) h)

theorem pow_dvd_of_le_valuation {k : Nat} (h : (k : ℤ) ≤ valuation p q) : p ^ k ∣ q.num.natAbs := by
  unfold valuation at h
  dsimp only at h
  have hle : k ≤ multiplicityUpTo p (q.num.natAbs.log2 + 1) q.num.natAbs := by omega
  exact (Nat.pow_dvd_pow p hle).trans (pow_multiplicityUpTo_dvd p _ _)

/-- A power of ten that an amount is a multiple of is not larger than the amount. -/
theorem canonicalExponent_le (h : Fits d q) : canonicalExponent q ≤ (d + 10 : Nat) := by
  by_contra hlt
  have hne : q ≠ 0 := by
    rintro rfl
    simp [canonicalExponent] at hlt
    omega
  rw [canonicalExponent, if_neg hne, not_le, lt_min_iff] at hlt
  have htwo : 2 ^ (d + 10) ∣ q.num.natAbs := pow_dvd_of_le_valuation hlt.1.le
  have hfive : 5 ^ (d + 10) ∣ q.num.natAbs := pow_dvd_of_le_valuation hlt.2.le
  have hcoprime : Nat.Coprime (2 ^ (d + 10)) (5 ^ (d + 10)) :=
    Nat.Coprime.pow _ _ (by decide)
  have hten : 10 ^ (d + 10) ∣ q.num.natAbs := by
    have hmul := hcoprime.mul_dvd_of_dvd_of_dvd htwo hfive
    rwa [← mul_pow] at hmul
  have hpos : 0 < q.num.natAbs := Int.natAbs_pos.2 (Rat.num_ne_zero.2 hne)
  have hle : 10 ^ (d + 10) ≤ q.num.natAbs := Nat.le_of_dvd hpos hten
  have hden : q.den ≤ 10 ^ 10 := Nat.le_of_dvd (by positivity) (den_dvd_of_fits h)
  have hnum : (q.num.natAbs : ℚ) = |q| * q.den := by
    have hcast : (q.num.natAbs : ℚ) = |(q.num : ℚ)| := by
      rw [Nat.cast_natAbs, Int.cast_abs]
    rw [hcast, ← Rat.mul_den_eq_num q, abs_mul, Nat.abs_cast]
  have hsize : (q.num.natAbs : ℚ) < pow10 (d + 10) := by
    rw [hnum, pow10_add]
    have hden' : (q.den : ℚ) ≤ pow10 10 := by
      rw [pow10]
      exact_mod_cast hden
    have hdenpos : (0 : ℚ) < q.den := by exact_mod_cast q.den_pos
    calc |q| * q.den < pow10 d * q.den := mul_lt_mul_of_pos_right h.2 hdenpos
      _ ≤ pow10 d * pow10 10 := mul_le_mul_of_nonneg_left hden' (pow10_pos d).le
  rw [pow10] at hsize
  exact absurd hle (not_le.2 (by exact_mod_cast hsize))

/-! ## The operations -/

theorem abs_coefficientAt_le (h : -(d : Int) ≤ e) : |coefficientAt q e| ≤ |q| * pow10 d := by
  unfold coefficientAt
  split
  · rw [abs_div, abs_of_pos (pow10_pos _)]
    calc |q| / pow10 e.toNat ≤ |q| := div_le_self (abs_nonneg q) (one_le_pow10 _)
      _ ≤ |q| * pow10 d := le_mul_of_one_le_right (abs_nonneg q) (one_le_pow10 d)
  · rw [abs_mul, abs_of_pos (pow10_pos _)]
    exact mul_le_mul_of_nonneg_left (pow10_mono (by omega)) (abs_nonneg q)

/-- A result that is a multiple of `10 ^ -d` and stays below `10 ^ (64 - d)` has at most 64
digits, at any exponent from `-d` up. -/
theorem exactlyRepresentable_of_bounds (hd : d ≤ 63) (hlow : -(d : Int) ≤ e) (hhigh : e ≤ 63)
    (hsize : |q| * pow10 d < pow10 64) (hunit : q ≠ 0 → 1 ≤ |q| * pow10 d) :
    exactlyRepresentable q e := by
  unfold exactlyRepresentable
  split
  · exact ⟨by omega, hhigh⟩
  · next hne =>
    have hlift : |q| * pow10 d ≤ |q| * pow10 63 :=
      mul_le_mul_of_nonneg_left (pow10_mono hd) (abs_nonneg q)
    have hself : |q| ≤ |q| * pow10 d := le_mul_of_one_le_right (abs_nonneg q) (one_le_pow10 d)
    exact ⟨(abs_coefficientAt_le hlow).trans_lt hsize, (hunit hne).trans hlift,
      hself.trans_lt hsize⟩

theorem Fits.abs_mul_lt (h : Fits d q) (hd : d ≤ 54) : |q| * pow10 10 < pow10 64 := by
  calc |q| * pow10 10 < pow10 d * pow10 10 := mul_lt_mul_of_pos_right h.2 (pow10_pos 10)
    _ = pow10 (d + 10) := (pow10_add d 10).symm
    _ ≤ pow10 64 := pow10_mono (by omega)

variable {a b : ℚ}

/-- A sum or a difference is taken at the smaller of two exponents. -/
theorem exactlyRepresentable_of_fits (ha : Fits d a) (hb : Fits 40 b) (hr : Fits 54 r) :
    exactlyRepresentable r (min (canonicalExponent a) (canonicalExponent b)) := by
  have hlow : -10 ≤ min (canonicalExponent a) (canonicalExponent b) :=
    le_min (neg_ten_le_canonicalExponent ha) (neg_ten_le_canonicalExponent hb)
  have hhigh : canonicalExponent b ≤ (40 + 10 : Nat) := canonicalExponent_le hb
  refine exactlyRepresentable_of_bounds (by decide : 10 ≤ 63) hlow ?_ (hr.abs_mul_lt le_rfl)
    hr.one_le_abs_mul
  exact (min_le_right _ _).trans (hhigh.trans (by decide))

theorem exactDecimalAdd_of_fits (ha : Fits 40 a) (hb : Fits 40 b) :
    exactDecimalAdd a b = .ok (a + b) :=
  exactResult_eq_ok.2 ⟨exactlyRepresentable_of_fits ha hb ((ha.add hb).mono (by decide)), rfl⟩

theorem exactDecimalSubtract_of_fits (ha : Fits 40 a) (hb : Fits 40 b) :
    exactDecimalSubtract a b = .ok (a - b) :=
  exactResult_eq_ok.2 ⟨exactlyRepresentable_of_fits ha hb ((ha.sub hb).mono (by decide)), rfl⟩

theorem exactDecimalMultiply_of_fits (ha : Fits 20 a) (hb : Fits 20 b) :
    exactDecimalMultiply a b = .ok (a * b) := by
  have hlow : -((20 : Nat) : Int) ≤ canonicalExponent a + canonicalExponent b := by
    have hlowa := neg_ten_le_canonicalExponent ha
    have hlowb := neg_ten_le_canonicalExponent hb
    omega
  have hhigh : canonicalExponent a + canonicalExponent b ≤ 63 := by
    have hhigha := canonicalExponent_le ha
    have hhighb := canonicalExponent_le hb
    omega
  have hproduct : |a * b| * pow10 20 = (|a| * pow10 10) * (|b| * pow10 10) := by
    rw [abs_mul, show (20 : Nat) = 10 + 10 from rfl, pow10_add, mul_mul_mul_comm]
  have hscaled : ∀ {q : ℚ}, Fits 20 q → |q| * pow10 10 < pow10 30 := by
    intro q hq
    rw [show (30 : Nat) = 20 + 10 from rfl, pow10_add]
    exact mul_lt_mul_of_pos_right hq.2 (pow10_pos 10)
  refine exactResult_eq_ok.2 ⟨exactlyRepresentable_of_bounds (by decide : 20 ≤ 63) hlow hhigh
    ?_ ?_, rfl⟩
  · rw [hproduct]
    calc (|a| * pow10 10) * (|b| * pow10 10)
        < pow10 30 * pow10 30 :=
          mul_lt_mul'' (hscaled ha) (hscaled hb) (by have := pow10_pos 10; positivity)
            (by have := pow10_pos 10; positivity)
      _ = pow10 60 := (pow10_add 30 30).symm
      _ ≤ pow10 64 := pow10_mono (by decide)
  · intro hne
    obtain ⟨hanz, hbnz⟩ := mul_ne_zero_iff.1 hne
    rw [hproduct]
    exact one_le_mul_of_one_le_of_one_le (ha.one_le_abs_mul hanz) (hb.one_le_abs_mul hbnz)

/-! ## Sums -/

variable {values : List ℚ}

/-- The running totals of nonnegative amounts stay below the whole sum. -/
theorem foldlM_exactDecimalAdd (htotal : Fits 40 total) (hnonneg : 0 ≤ total)
    (hvalues : ∀ v ∈ values, 0 ≤ v ∧ Fits 40 v) (hsum : total + values.sum < pow10 40) :
    values.foldlM exactDecimalAdd total = .ok (total + values.sum) := by
  induction values generalizing total with
  | nil => simp [List.foldlM, pure, Except.pure]
  | cons v rest ih =>
    obtain ⟨hv, hfits⟩ := hvalues v List.mem_cons_self
    have hrest : ∀ w ∈ rest, 0 ≤ w ∧ Fits 40 w := fun w hw =>
      hvalues w (List.mem_cons_of_mem v hw)
    have hrestsum : 0 ≤ rest.sum := List.sum_nonneg fun w hw => (hrest w hw).1
    rw [List.sum_cons, ← add_assoc] at hsum
    have hnext : Fits 40 (total + v) := by
      refine (htotal.add hfits).of_abs_lt ?_
      rw [abs_of_nonneg (by linarith)]
      linarith
    rw [List.foldlM_cons, exactDecimalAdd_of_fits htotal hfits, List.sum_cons, ← add_assoc]
    exact ih hnext (by linarith) hrest hsum

/-- A sum of amounts has at most ten decimals. -/
theorem Fits.sum (hvalues : ∀ v ∈ values, Fits d v) (hsum : |values.sum| < pow10 e) :
    Fits e values.sum := by
  have hunits : ∃ n : ℤ, values.sum * pow10 10 = n := by
    clear hsum
    induction values with
    | nil => exact ⟨0, by rw [List.sum_nil, zero_mul, Int.cast_zero]⟩
    | cons v rest ih =>
      obtain ⟨m, hm⟩ := den_eq_one_iff.1 (hvalues v List.mem_cons_self).1
      obtain ⟨n, hn⟩ := ih fun w hw => hvalues w (List.mem_cons_of_mem v hw)
      exact ⟨m + n, by rw [List.sum_cons, add_mul, hm, hn, Int.cast_add]⟩
  exact ⟨den_eq_one_iff.2 hunits, hsum⟩

/-- A sum of small amounts is exact at every partial sum. -/
theorem exactDecimalSum_of_fits (hvalues : ∀ v ∈ values, 0 ≤ v ∧ Fits 40 v)
    (hsum : values.sum < pow10 40) : exactDecimalSum values = .ok values.sum := by
  have h := foldlM_exactDecimalAdd Fits.zero le_rfl hvalues (by rwa [zero_add])
  rwa [zero_add] at h

/-! ## Amounts that a record accepts -/

/-- A whole number of shares times an amount has no more decimals than the amount. -/
theorem Fits.whole_mul (hq : isWhole q) (ha : Fits d a) (hlt : |q * a| < pow10 e) :
    Fits e (q * a) := by
  obtain ⟨n, hn⟩ := den_eq_one_iff.1 ha.1
  refine ⟨den_eq_one_iff.2 ⟨q.num * n, ?_⟩, hlt⟩
  rw [mul_assoc, hn, Int.cast_mul, Rat.coe_int_num_of_den_eq_one hq]

theorem requireAmount_of_nonneg (h : isPersisted value) (hnonneg : 0 ≤ value)
    (hwhole : whole = true → isWhole value) :
    requireAmount value name true false whole = .ok () := by
  simp only [requireAmount, Py.eq_ok, canonicalPersistedDecimal_eq_ok]
  refine ⟨value, ⟨h, rfl⟩, (), ?_, ?_⟩
  · rintro (⟨-, hneg⟩ | ⟨hpositive, -⟩)
    · exact absurd hnonneg (not_le.2 hneg)
    · cases hpositive
  · rintro ⟨hw, hbad⟩
    exact hbad (hwhole hw)

end AutoQuantTrader
