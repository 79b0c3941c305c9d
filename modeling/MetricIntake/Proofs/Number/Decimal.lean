-- SUMMARY: A decimal is rounded by its value, however it is written, and the shortest decimal of a number is rounded to it.
import MetricIntake.Number.Decimal
import MetricIntake.Proofs.Number.Rounding

/-!
# Decimals and their values

The limits beyond which a decimal is not computed do not show: far above the range it
would be infinite and far below it zero all the same. So two decimals of one value
have the same magnitude. The shortest decimal of a number is searched for among
candidates that were rounded and compared, and the exact value stands behind them.
-/

namespace MetricIntake.Decimal

open MetricIntake.Binary64

variable {d d' : Decimal} {m num den n : Nat}

/-- The number that a decimal stands for. -/
def value (d : Decimal) : ℚ := d.digits * 10 ^ d.exponent

theorem ten_zpow_pos (k : Int) : (0 : ℚ) < 10 ^ k := zpow_pos (by norm_num) k

theorem pow_ten_pos (k : Nat) : 0 < Nat.pow 10 k := Nat.pow_pos (by decide)

/-- The value as the quotient that is rounded. -/
theorem value_eq_div (d : Decimal) :
    ((d.digits * Nat.pow 10 d.exponent.toNat : ℕ) : ℚ) / (Nat.pow 10 (-d.exponent).toNat : ℕ) =
      d.value := by
  have hpow := zpow_eq_div 10 d.exponent
  rw [Nat.cast_ofNat] at hpow
  rw [value, hpow, Nat.cast_mul, mul_div_assoc]

theorem two_zpow_le_ten : (2 : ℚ) ^ (1024 : Int) ≤ 10 ^ (401 : Int) := by
  have h : 2 ^ 1024 ≤ 10 ^ 401 := by decide +kernel
  exact_mod_cast h

theorem ten_zpow_lt_two : (10 : ℚ) ^ (-400 : Int) < 2 ^ (-1075 : Int) := by
  have h : (2 : ℚ) ^ 1075 < 10 ^ 400 := by
    have hnat : 2 ^ 1075 < 10 ^ 400 := by decide +kernel
    exact_mod_cast hnat
  rw [zpow_neg, zpow_neg]
  exact inv_strictAnti₀ (two_zpow_pos _) h

/-- A decimal is rounded as the quotient that it stands for, within the limits of
    computation and beyond them. -/
theorem magnitude_eq (d : Decimal) :
    d.magnitude = magnitudeOfRatio (d.digits * Nat.pow 10 d.exponent.toNat)
      (Nat.pow 10 (-d.exponent).toNat) := by
  have hvalue := value_eq_div d
  unfold magnitude
  split
  · rename_i hdigits
    rw [hdigits, Nat.zero_mul, magnitudeOfRatio_zero]
  · rename_i hdigits
    split
    · rename_i hlarge
      refine (magnitudeOfRatio_of_large (pow_ten_pos _) ?_).symm
      rw [hvalue, value]
      have hone : (1 : ℚ) ≤ d.digits := by exact_mod_cast Nat.one_le_iff_ne_zero.2 hdigits
      calc (2 : ℚ) ^ (1024 : Int) ≤ 10 ^ (401 : Int) := two_zpow_le_ten
        _ ≤ 10 ^ d.exponent := zpow_le_zpow_right₀ (by norm_num) (by omega)
        _ ≤ d.digits * 10 ^ d.exponent := le_mul_of_one_le_left (ten_zpow_pos _).le hone
    · split
      · rename_i hsmall
        refine (magnitudeOfRatio_of_small (pow_ten_pos _) ?_).symm
        rw [hvalue, value]
        -- each binary digit is worth less than a decimal one
        have hdigits : (d.digits : ℚ) < 10 ^ ((d.digits.log2 : Int) + 1) := by
          refine (lt_two_zpow_log2 d.digits).trans_le ?_
          exact zpow_le_zpow_left₀ (by omega) (by norm_num) (by norm_num)
        calc (d.digits : ℚ) * 10 ^ d.exponent
            < 10 ^ ((d.digits.log2 : Int) + 1) * 10 ^ d.exponent :=
              mul_lt_mul_of_pos_right hdigits (ten_zpow_pos _)
          _ = 10 ^ (d.exponent + d.digits.log2 + 1) := by
              rw [← zpow_add₀ (by norm_num)]
              congr 1
              ring
          _ ≤ 10 ^ (-400 : Int) := zpow_le_zpow_right₀ (by norm_num) (by omega)
          _ < 2 ^ (-1075 : Int) := ten_zpow_lt_two
      · rfl

/-- Decimals of one value have the same magnitude. -/
theorem magnitude_congr (h : d.value = d'.value) : d.magnitude = d'.magnitude := by
  rw [magnitude_eq, magnitude_eq]
  refine magnitudeOfRatio_congr (pow_ten_pos _) (pow_ten_pos _) ?_
  rw [value_eq_div, value_eq_div, h]

/-! ## The shortest decimal -/

/-- A candidate is returned only if it is rounded to the number. -/
theorem magnitude_of_ofLength? (h : ofLength? m num den n = some d) : d.magnitude = m := by
  unfold ofLength? at h
  dsimp only at h
  split at h
  · rename_i hlow hhigh
    split at h
    · exact Option.some.inj h ▸ beq_iff_eq.1 hlow
    · exact Option.some.inj h ▸ beq_iff_eq.1 hhigh
  · rename_i hlow _
    exact Option.some.inj h ▸ beq_iff_eq.1 hlow
  · rename_i _ hhigh
    exact Option.some.inj h ▸ beq_iff_eq.1 hhigh
  · cases h

/-- The exact value of a magnitude. -/
theorem value_exact (m : Nat) : (exact m).value = significand m * 2 ^ Binary64.exponent m := by
  unfold exact value
  dsimp only
  obtain ⟨k, hk | hk⟩ := Int.eq_nat_or_neg (Binary64.exponent m)
  · rw [hk, min_eq_left (Int.natCast_nonneg k)]
    simp
  · -- a power of five makes up for the powers of ten that are counted
    have hten : (10 : ℚ) ^ (-(k : Int)) = 2 ^ (-(k : Int)) * 5 ^ (-(k : Int)) := by
      rw [← mul_zpow]
      norm_num
    have hfive : (5 : ℚ) ^ k * 5 ^ (-(k : Int)) = 1 := by
      rw [zpow_neg, zpow_natCast, mul_inv_cancel₀ (by positivity)]
    rw [hk, min_eq_right (by omega), hten]
    simp only [Int.toNat_neg_natCast, Nat.pow_eq, pow_zero, mul_one, neg_neg, Int.toNat_natCast,
      Nat.cast_mul, Nat.cast_pow, Nat.cast_ofNat]
    calc (significand m : ℚ) * 5 ^ k * (2 ^ (-(k : Int)) * 5 ^ (-(k : Int)))
        = significand m * 2 ^ (-(k : Int)) * (5 ^ k * 5 ^ (-(k : Int))) := by ring
      _ = significand m * 2 ^ (-(k : Int)) := by rw [hfive, mul_one]

theorem magnitude_exact (hm : m < infinity) : (exact m).magnitude = m := by
  rw [magnitude_eq]
  refine magnitudeOfRatio_of_number hm (pow_ten_pos _) ?_
  rw [value_eq_div, value_exact]

/-- The shortest decimal of a number is rounded to this number. -/
theorem magnitude_shortest (hm : m < infinity) : (shortest m).magnitude = m := by
  unfold shortest
  split
  · rename_i hzero
    rw [hzero]
    rfl
  · dsimp only
    cases hfound : (List.range 17).findSome? fun n =>
        ofLength? m (significand m * Nat.pow 2 (Binary64.exponent m).toNat)
          (Nat.pow 2 (-Binary64.exponent m).toNat) (n + 1) with
    | none => exact magnitude_exact hm
    | some d =>
      obtain ⟨n, -, hd⟩ := List.exists_of_findSome?_eq_some hfound
      exact magnitude_of_ofLength? hd

end MetricIntake.Decimal
