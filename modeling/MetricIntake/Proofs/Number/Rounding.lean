-- SUMMARY: Rounding a quotient to binary64 depends on its value alone, is exact on the numbers themselves, and is infinite or zero far outside their range.
import Mathlib.Data.Int.Log
import Mathlib.Data.Rat.Floor
import MetricIntake.Number.Binary64

/-!
# Rounding quotients

A quotient of naturals is rounded by shifting its two sides until the quotient has
the right number of places, and then dividing. Here the quotient is a rational
number: its binary logarithm decides the place of the last digit, so two ways to
write one quotient are rounded alike.
-/

namespace MetricIntake.Binary64

variable {num den num' den' m : Nat} {k : Int} {q : ℚ}

/-! ## Powers with exponents of either sign -/

/-- A power whose exponent may be negative is a quotient of naturals. -/
theorem zpow_eq_div (b : Nat) (k : Int) :
    (b : ℚ) ^ k = (Nat.pow b k.toNat : ℕ) / (Nat.pow b (-k).toNat : ℕ) := by
  obtain ⟨n, rfl | rfl⟩ := Int.eq_nat_or_neg k
  · simp
  · simp

/-- Shifting both sides of a quotient divides it by a power of two. -/
theorem shifted_div (num den : Nat) (k : Int) :
    ((num * Nat.pow 2 (-k).toNat : ℕ) : ℚ) / (den * Nat.pow 2 k.toNat : ℕ) = num / den / 2 ^ k := by
  have hpow := zpow_eq_div 2 k
  rw [Nat.cast_ofNat] at hpow
  rw [hpow, Nat.cast_mul, Nat.cast_mul, div_div_eq_mul_div, div_mul_eq_mul_div, div_div]

theorem two_zpow_pos (k : Int) : (0 : ℚ) < 2 ^ k := zpow_pos (by norm_num) k

theorem two_zpow_succ (k : Int) : (2 : ℚ) ^ (k + 1) = 2 ^ k * 2 := zpow_add_one₀ (by norm_num) k

/-! ## The last place -/

theorem le_log_iff (hq : 0 < q) : k ≤ Int.log 2 q ↔ 2 ^ k ≤ q := by
  have h : ((2 : ℕ) : ℚ) ^ k ≤ q ↔ k ≤ Int.log 2 q := Int.zpow_le_iff_le_log (by decide) hq
  rw [← h, Nat.cast_ofNat]

theorem log_lt_iff (hq : 0 < q) : Int.log 2 q < k ↔ q < 2 ^ k := by
  have h : q < ((2 : ℕ) : ℚ) ^ k ↔ Int.log 2 q < k := Int.lt_zpow_iff_log_lt (by decide) hq
  rw [← h, Nat.cast_ofNat]

theorem log_eq (hle : 2 ^ k ≤ q) (hlt : q < 2 ^ (k + 1)) : Int.log 2 q = k := by
  have hq : 0 < q := (two_zpow_pos k).trans_le hle
  have hlow := (le_log_iff hq).2 hle
  have hhigh := (log_lt_iff hq).2 hlt
  omega

theorem two_zpow_log2_le (hnum : num ≠ 0) : (2 : ℚ) ^ (num.log2 : Int) ≤ num := by
  rw [zpow_natCast]
  exact_mod_cast Nat.log2_self_le hnum

theorem lt_two_zpow_log2 (num : Nat) : (num : ℚ) < 2 ^ ((num.log2 : Int) + 1) := by
  have h : (num : ℚ) < 2 ^ (num.log2 + 1) := by exact_mod_cast Nat.lt_log2_self
  exact_mod_cast h

/-- A quotient lies within a factor of two of the quotient of the leading bits. -/
theorem log2_bounds (hnum : num ≠ 0) (hden : 0 < den) :
    (2 : ℚ) ^ ((num.log2 : Int) - den.log2 - 1) < num / den ∧
      (num : ℚ) / den < 2 ^ ((num.log2 : Int) - den.log2 + 1) := by
  have hnumpos : (0 : ℚ) < num := by exact_mod_cast Nat.pos_of_ne_zero hnum
  have hdenpos : (0 : ℚ) < den := by exact_mod_cast hden
  have htwo : (2 : ℚ) ≠ 0 := by norm_num
  constructor
  · have hsplit : (num.log2 : Int) - den.log2 - 1 = num.log2 - (den.log2 + 1) := by omega
    rw [hsplit, zpow_sub₀ htwo]
    calc (2 : ℚ) ^ (num.log2 : Int) / 2 ^ ((den.log2 : Int) + 1)
        ≤ num / 2 ^ ((den.log2 : Int) + 1) :=
          div_le_div_of_nonneg_right (two_zpow_log2_le hnum) (two_zpow_pos _).le
      _ < num / den := div_lt_div_of_pos_left hnumpos hdenpos (lt_two_zpow_log2 den)
  · have hsplit : (num.log2 : Int) - den.log2 + 1 = num.log2 + 1 - den.log2 := by omega
    rw [hsplit, zpow_sub₀ htwo]
    calc (num : ℚ) / den < 2 ^ ((num.log2 : Int) + 1) / den :=
          div_lt_div_of_pos_right (lt_two_zpow_log2 num) hdenpos
      _ ≤ 2 ^ ((num.log2 : Int) + 1) / 2 ^ (den.log2 : Int) :=
          div_le_div_of_nonneg_left (two_zpow_pos _).le (two_zpow_pos _) (two_zpow_log2_le hden.ne')

/-- The last place of a positive quotient is 52 below its binary logarithm, and not
    below that of the least number. -/
theorem lastPlace_eq (hnum : num ≠ 0) (hden : 0 < den) :
    lastPlace num den = max (-1074) (Int.log 2 (num / den : ℚ) - 52) := by
  obtain ⟨hlow, hhigh⟩ := log2_bounds hnum hden
  unfold lastPlace
  dsimp only
  generalize (num.log2 : Int) - den.log2 = k at hlow hhigh
  have hshifted := shifted_div num den k
  have hpos : (0 : ℚ) < (den * Nat.pow 2 k.toNat : ℕ) := by
    have : 0 < den * Nat.pow 2 k.toNat := Nat.mul_pos hden (Nat.pow_pos (by decide))
    exact_mod_cast this
  -- the shifted quotient is below one exactly when the quotient is below its leading power
  have hbelow : num * Nat.pow 2 (-k).toNat < den * Nat.pow 2 k.toNat ↔ (num : ℚ) / den < 2 ^ k := by
    rw [← Nat.cast_lt (α := ℚ), ← div_lt_one hpos, hshifted, div_lt_one (two_zpow_pos k)]
  congr 2
  split
  · rename_i hlt
    refine (log_eq hlow.le ?_).symm
    rw [sub_add_cancel]
    exact hbelow.1 hlt
  · rename_i hle
    exact (log_eq (not_lt.1 (mt hbelow.2 hle)) hhigh).symm

/-! ## The nearest natural -/

theorem divNearest_mul_right (num den : Nat) {c : Nat} (hc : 0 < c) :
    divNearest (num * c) (den * c) = divNearest num den := by
  have hlow : 2 * (num % den * c) < den * c ↔ 2 * (num % den) < den := by
    rw [← Nat.mul_assoc]
    exact Nat.mul_lt_mul_right hc
  have hhigh : den * c < 2 * (num % den * c) ↔ den < 2 * (num % den) := by
    rw [← Nat.mul_assoc]
    exact Nat.mul_lt_mul_right hc
  simp only [divNearest, Nat.mul_div_mul_right _ _ hc, Nat.mul_mod_mul_right, hlow, hhigh]

/-- Equal quotients have the same nearest natural. -/
theorem divNearest_congr (hden : 0 < den) (hden' : 0 < den')
    (h : (num : ℚ) / den = num' / den') : divNearest num den = divNearest num' den' := by
  have hpos : (den : ℚ) ≠ 0 := by exact_mod_cast hden.ne'
  have hpos' : (den' : ℚ) ≠ 0 := by exact_mod_cast hden'.ne'
  have hcross : num * den' = num' * den := by
    rw [div_eq_div_iff hpos hpos'] at h
    exact_mod_cast h
  calc divNearest num den = divNearest (num * den') (den * den') :=
        (divNearest_mul_right num den hden').symm
    _ = divNearest (num' * den) (den' * den) := by rw [hcross, Nat.mul_comm den]
    _ = divNearest num' den' := divNearest_mul_right num' den' hden

theorem div_le_divNearest (num den : Nat) : num / den ≤ divNearest num den := by
  unfold divNearest
  dsimp only
  split
  · exact le_rfl
  · split <;> omega

theorem divNearest_one (n : Nat) : divNearest n 1 = n := by
  simp [divNearest, Nat.mod_one]

theorem divNearest_of_lt_half (h : 2 * num < den) : divNearest num den = 0 := by
  have hlt : num < den := by omega
  simp [divNearest, Nat.div_eq_of_lt hlt, Nat.mod_eq_of_lt hlt, h]

/-! ## Units of the last place -/

/-- The natural nearest to a quotient that is measured in units of the last place. -/
def unitsNearest (num den : Nat) (e : Int) : Nat :=
  divNearest (num * Nat.pow 2 (-e).toNat) (den * Nat.pow 2 e.toNat)

theorem shifted_pos (hden : 0 < den) (e : Int) : 0 < den * Nat.pow 2 e.toNat :=
  Nat.mul_pos hden (Nat.pow_pos (by decide))

theorem unitsNearest_congr (hden : 0 < den) (hden' : 0 < den') (h : (num : ℚ) / den = num' / den')
    (e : Int) : unitsNearest num den e = unitsNearest num' den' e := by
  refine divNearest_congr (shifted_pos hden e) (shifted_pos hden' e) ?_
  rw [shifted_div, shifted_div, h]

/-- A whole number of units stays what it is. -/
theorem unitsNearest_eq {n : Nat} {e : Int} (hden : 0 < den) (h : (num : ℚ) / den = n * 2 ^ e) :
    unitsNearest num den e = n := by
  have hunits : ((num * Nat.pow 2 (-e).toNat : ℕ) : ℚ) / (den * Nat.pow 2 e.toNat : ℕ) =
      n / (1 : ℕ) := by
    rw [shifted_div, h, mul_div_cancel_right₀ _ (two_zpow_pos e).ne', Nat.cast_one, div_one]
  rw [unitsNearest, divNearest_congr (shifted_pos hden e) Nat.one_pos hunits, divNearest_one]

theorem le_unitsNearest {n : Nat} {e : Int} (hden : 0 < den) (h : (n : ℚ) * 2 ^ e ≤ num / den) :
    n ≤ unitsNearest num den e := by
  refine le_trans ?_ (div_le_divNearest _ _)
  have hpos : (0 : ℚ) < (den * Nat.pow 2 e.toNat : ℕ) := by exact_mod_cast shifted_pos hden e
  rw [Nat.le_div_iff_mul_le (shifted_pos hden e)]
  rw [← le_div_iff₀ (two_zpow_pos e), ← shifted_div, le_div_iff₀ hpos] at h
  exact_mod_cast h

theorem unitsNearest_eq_zero {e : Int} (hden : 0 < den) (h : 2 * ((num : ℚ) / den) < 2 ^ e) :
    unitsNearest num den e = 0 := by
  have hpos : (0 : ℚ) < (den * Nat.pow 2 e.toNat : ℕ) := by exact_mod_cast shifted_pos hden e
  rw [← div_lt_one (two_zpow_pos e), mul_div_assoc, ← shifted_div, ← mul_div_assoc,
    div_lt_one hpos] at h
  exact divNearest_of_lt_half (by exact_mod_cast h)

/-! ## Magnitudes -/

theorem magnitudeOfRatio_eq (hnum : num ≠ 0) (hden : 0 < den) {e : Int}
    (he : max (-1074) (Int.log 2 (num / den : ℚ) - 52) = e) :
    magnitudeOfRatio num den =
      min infinity ((e + 1074).toNat * leading + unitsNearest num den e) := by
  rw [magnitudeOfRatio, if_neg hnum, lastPlace_eq hnum hden, he]
  rfl

theorem ratio_pos (hnum : num ≠ 0) (hden : 0 < den) : (0 : ℚ) < num / den := by
  have hnumpos : (0 : ℚ) < num := by exact_mod_cast Nat.pos_of_ne_zero hnum
  have hdenpos : (0 : ℚ) < den := by exact_mod_cast hden
  exact div_pos hnumpos hdenpos

theorem ratio_eq_zero_iff (hden : 0 < den) : (num : ℚ) / den = 0 ↔ num = 0 := by
  simp [hden.ne']

theorem magnitudeOfRatio_zero (den : Nat) : magnitudeOfRatio 0 den = 0 := rfl

/-- A quotient is rounded by its value. -/
theorem magnitudeOfRatio_congr (hden : 0 < den) (hden' : 0 < den')
    (h : (num : ℚ) / den = num' / den') :
    magnitudeOfRatio num den = magnitudeOfRatio num' den' := by
  by_cases hnum : num = 0
  · have hnum' : num' = 0 := by rwa [← ratio_eq_zero_iff hden', ← h, ratio_eq_zero_iff hden]
    rw [hnum, hnum', magnitudeOfRatio_zero, magnitudeOfRatio_zero]
  · have hnum' : num' ≠ 0 := by rwa [← ratio_eq_zero_iff hden, h, ratio_eq_zero_iff hden'] at hnum
    rw [magnitudeOfRatio_eq hnum hden rfl, magnitudeOfRatio_eq hnum' hden' rfl, h,
      unitsNearest_congr hden hden' h]

theorem leading_eq : (leading : ℚ) = 2 ^ (52 : Int) := by norm_num [leading]

/-- What is too large for a number is infinite. -/
theorem magnitudeOfRatio_of_large (hden : 0 < den) (h : (2 : ℚ) ^ (1024 : Int) ≤ num / den) :
    magnitudeOfRatio num den = infinity := by
  have hq : (0 : ℚ) < num / den := (two_zpow_pos _).trans_le h
  have hnum : num ≠ 0 := mt (ratio_eq_zero_iff hden).2 hq.ne'
  have hlog : (1024 : Int) ≤ Int.log 2 (num / den : ℚ) := (le_log_iff hq).2 h
  have hle : (2 : ℚ) ^ Int.log 2 (num / den : ℚ) ≤ num / den := (le_log_iff hq).1 le_rfl
  obtain ⟨e, he⟩ : ∃ e, Int.log 2 (num / den : ℚ) = 52 + e := ⟨_, (add_sub_cancel 52 _).symm⟩
  rw [he] at hlog hle
  have hmax : max (-1074) (Int.log 2 (num / den : ℚ) - 52) = e := by omega
  -- the units fill at least the leading bit
  have hunits : leading ≤ unitsNearest num den e := by
    refine le_unitsNearest hden ?_
    rwa [leading_eq, ← zpow_add₀ (by norm_num)]
  have hexponent : 2046 ≤ (e + 1074).toNat := by omega
  rw [magnitudeOfRatio_eq hnum hden hmax]
  refine min_eq_left ?_
  calc infinity = 2046 * leading + leading := by decide
    _ ≤ _ := Nat.add_le_add (Nat.mul_le_mul_right _ hexponent) hunits

/-- What is too small for a number is zero. -/
theorem magnitudeOfRatio_of_small (hden : 0 < den) (h : (num : ℚ) / den < 2 ^ (-1075 : Int)) :
    magnitudeOfRatio num den = 0 := by
  by_cases hnum : num = 0
  · rw [hnum, magnitudeOfRatio_zero]
  · have hlog : Int.log 2 (num / den : ℚ) < -1075 := (log_lt_iff (ratio_pos hnum hden)).2 h
    have hunits : unitsNearest num den (-1074) = 0 := by
      refine unitsNearest_eq_zero hden ?_
      have hpow : (2 : ℚ) ^ (-1074 : Int) = 2 ^ (-1075 : Int) * 2 := by
        rw [← two_zpow_succ, neg_add_eq_sub]
        rfl
      linarith
    rw [magnitudeOfRatio_eq hnum hden (max_eq_left (by omega)), hunits]
    rfl

/-! ### Numbers -/

theorem significand_of_lt (h : m < leading) : significand m = m ∧ exponent m = -1074 :=
  ⟨if_pos h, if_pos h⟩

theorem significand_of_le (h : leading ≤ m) :
    significand m = leading + m % leading ∧ exponent m = (m / leading : Nat) - 1075 :=
  ⟨if_neg (Nat.not_lt.2 h), if_neg (Nat.not_lt.2 h)⟩

theorem significand_ne_zero (h : m ≠ 0) : significand m ≠ 0 := by
  rcases Nat.lt_or_ge m leading with hlt | hle
  · rwa [(significand_of_lt hlt).1]
  · have hpos : 0 < leading := by decide
    rw [(significand_of_le hle).1]
    omega

/-- The exponent counts from the least one, and the leading bit carries into it. -/
theorem exponent_mul_add_significand (m : Nat) :
    (exponent m + 1074).toNat * leading + significand m = m := by
  rcases Nat.lt_or_ge m leading with hlt | hle
  · obtain ⟨hsignificand, hexponent⟩ := significand_of_lt hlt
    rw [hsignificand, hexponent]
    exact (congrArg (· + m) (Nat.zero_mul leading)).trans (Nat.zero_add m)
  · obtain ⟨hsignificand, hexponent⟩ := significand_of_le hle
    have hquotient : 1 ≤ m / leading := Nat.div_pos hle (by decide)
    have hnat : ((m / leading : Nat) - 1075 + 1074 : Int).toNat + 1 = m / leading := by omega
    rw [hsignificand, hexponent, ← Nat.add_assoc, ← Nat.succ_mul, Nat.succ_eq_add_one, hnat,
      Nat.div_add_mod']

/-- The last place of a number is that of its significand. -/
theorem lastPlace_of_number (hm : m ≠ 0) :
    max (-1074) (Int.log 2 (significand m * 2 ^ exponent m : ℚ) - 52) = exponent m := by
  have hsignificand : (0 : ℚ) < significand m := by
    exact_mod_cast Nat.pos_of_ne_zero (significand_ne_zero hm)
  have hpos : (0 : ℚ) < significand m * 2 ^ exponent m := mul_pos hsignificand (two_zpow_pos _)
  rcases Nat.lt_or_ge m leading with hlt | hle
  · obtain ⟨hself, hexponent⟩ := significand_of_lt hlt
    have hlog : Int.log 2 (significand m * 2 ^ exponent m : ℚ) < 52 + exponent m := by
      rw [log_lt_iff hpos, zpow_add₀ (by norm_num), ← leading_eq, hself]
      exact mul_lt_mul_of_pos_right (by exact_mod_cast hlt) (two_zpow_pos _)
    omega
  · obtain ⟨hself, hexponent⟩ := significand_of_le hle
    have hquotient : 1 ≤ m / leading := Nat.div_pos hle (by decide)
    have hmod : m % leading < leading := Nat.mod_lt _ (by decide)
    have hlog : Int.log 2 (significand m * 2 ^ exponent m : ℚ) = 52 + exponent m := by
      refine log_eq ?_ ?_
      · rw [zpow_add₀ (by norm_num), ← leading_eq]
        exact mul_le_mul_of_nonneg_right (by exact_mod_cast hself ▸ Nat.le_add_right _ _)
          (two_zpow_pos _).le
      · have hdouble : (2 : ℚ) ^ (52 + exponent m + 1) = (leading * 2 : ℕ) * 2 ^ exponent m := by
          rw [two_zpow_succ, zpow_add₀ (by norm_num), ← leading_eq, Nat.cast_mul, Nat.cast_ofNat]
          ring
        rw [hdouble]
        refine mul_lt_mul_of_pos_right ?_ (two_zpow_pos _)
        exact_mod_cast (by omega : significand m < leading * 2)
    omega

/-- A quotient that is a number is rounded to this number. -/
theorem magnitudeOfRatio_of_number (hm : m < infinity) (hden : 0 < den)
    (h : (num : ℚ) / den = significand m * 2 ^ exponent m) : magnitudeOfRatio num den = m := by
  by_cases hzero : m = 0
  · have hnum : num = 0 := by
      rw [← ratio_eq_zero_iff hden, h, hzero, (significand_of_lt (by decide)).1]
      simp
    rw [hnum, hzero, magnitudeOfRatio_zero]
  · have hnum : num ≠ 0 := by
      rw [Ne, ← ratio_eq_zero_iff hden, h, mul_eq_zero, not_or]
      exact ⟨by exact_mod_cast significand_ne_zero hzero, (two_zpow_pos _).ne'⟩
    have hplace : max (-1074) (Int.log 2 (num / den : ℚ) - 52) = exponent m := by
      rw [h, lastPlace_of_number hzero]
    rw [magnitudeOfRatio_eq hnum hden hplace, unitsNearest_eq hden h, exponent_mul_add_significand]
    exact min_eq_right hm.le

end MetricIntake.Binary64
