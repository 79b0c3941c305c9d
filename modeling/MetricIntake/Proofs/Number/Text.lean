-- SUMMARY: The text of a number is one field, and is read back as the number itself: every finite one, the infinities, and the sign of zero.
import MetricIntake.Proofs.Number.Decimal
import MetricIntake.Proofs.Number.Digits

/-!
# Numbers and their texts

A number is written positionally: digits, and a point with more digits if there is a
fraction. `Positional` says which value such a text stands for, and both the writer
and the reader are compared with it. The reader may come back with another decimal
than the writer started from, but with one of the same value, and rounding does not
tell the two apart.
-/

namespace MetricIntake

namespace Decimal

open MetricIntake.Literal (Digits digitsValue)
open MetricIntake.Text (IsField)

variable {cs : List Char} {q : ℚ} {n : Nat}

/-- The value that a positional text stands for. There are digits in front of the point. -/
inductive Positional : List Char → ℚ → Prop
  | whole {whole : List Char} : Digits whole → whole ≠ [] → Positional whole (digitsValue whole)
  | fraction {whole fraction : List Char} :
    Digits whole → whole ≠ [] → Digits fraction →
    Positional (whole ++ '.' :: fraction)
      (digitsValue (whole ++ fraction) * 10 ^ (-(fraction.length : Int)))

/-! ## Writing -/

/-- Significant digits and the zeros behind them make up the number. -/
theorem significantDigits_spec (hn : n ≠ 0) :
    ∃ ds zeros, significantDigits n = (ds, zeros) ∧ ds ≠ [] ∧ Digits ds ∧
      digitsValue ds * 10 ^ zeros = n := by
  refine ⟨_, _, rfl, ?_⟩
  have hcut := List.takeWhile_append_dropWhile (p := (· == '0')) (l := (Nat.toDigits 10 n).reverse)
  generalize htake : (Nat.toDigits 10 n).reverse.takeWhile (· == '0') = zeros at hcut
  generalize hdrop : (Nat.toDigits 10 n).reverse.dropWhile (· == '0') = ds at hcut
  have hzeros : zeros = List.replicate zeros.length '0' := by
    refine List.eq_replicate_of_mem fun c hc => ?_
    rw [← htake] at hc
    simpa using List.mem_takeWhile_imp hc
  have hdigits : Nat.toDigits 10 n = ds.reverse ++ List.replicate zeros.length '0' := by
    calc Nat.toDigits 10 n = (zeros ++ ds).reverse := by rw [hcut, List.reverse_reverse]
      _ = ds.reverse ++ (List.replicate zeros.length '0').reverse := by
          rw [List.reverse_append, ← hzeros]
      _ = _ := by rw [List.reverse_replicate]
  have hvalue : digitsValue ds.reverse * 10 ^ zeros.length = n := by
    rw [← Literal.digitsValue_append_zeros, ← hdigits, Literal.digitsValue_toDigits]
  refine ⟨?_, ?_, hvalue⟩
  · intro hnil
    rw [hnil] at hvalue
    exact hn (hvalue.symm.trans (Nat.zero_mul _))
  · intro c hc
    exact Literal.digits_toDigits n c (hdigits ▸ List.mem_append_left _ hc)

theorem positional_whole (hdigits : Digits cs) (hne : cs ≠ []) (k : Nat) :
    Positional (cs ++ List.replicate k '0') (digitsValue cs * 10 ^ (k : Int)) := by
  have hvalue : (digitsValue cs : ℚ) * 10 ^ (k : Int) =
      digitsValue (cs ++ List.replicate k '0') := by
    rw [Literal.digitsValue_append_zeros, Nat.cast_mul, Nat.cast_pow, zpow_natCast, Nat.cast_ofNat]
  rw [hvalue]
  exact .whole (hdigits.append (Literal.digits_zeros k)) (List.append_ne_nil_of_left_ne_nil hne _)

/-- The point stands among the digits. -/
theorem positional_among {k : Nat} (hdigits : Digits cs) (hk : k < cs.length) :
    Positional (cs.take (cs.length - k) ++ '.' :: cs.drop (cs.length - k))
      (digitsValue cs * 10 ^ (-(k : Int))) := by
  have hfront : Digits (cs.take (cs.length - k)) := fun c hc => hdigits c (List.mem_of_mem_take hc)
  have hback : Digits (cs.drop (cs.length - k)) := fun c hc => hdigits c (List.mem_of_mem_drop hc)
  have hne : cs.take (cs.length - k) ≠ [] := by
    rw [Ne, List.take_eq_nil_iff, not_or]
    exact ⟨by omega, List.ne_nil_of_length_pos (by omega)⟩
  have hlength : (cs.drop (cs.length - k)).length = k := by
    rw [List.length_drop]
    omega
  have htext := Positional.fraction hfront hne hback
  rwa [List.take_append_drop, hlength] at htext

/-- The point stands in front of the digits. -/
theorem positional_below {k : Nat} (hdigits : Digits cs) (hk : cs.length ≤ k) :
    Positional ('0' :: '.' :: List.replicate (k - cs.length) '0' ++ cs)
      (digitsValue cs * 10 ^ (-(k : Int))) := by
  have hlength : (List.replicate (k - cs.length) '0' ++ cs).length = k := by
    rw [List.length_append, List.length_replicate]
    omega
  have htext := Positional.fraction (Literal.digits_zeros 1) (List.cons_ne_nil _ _)
    ((Literal.digits_zeros (k - cs.length)).append hdigits)
  rwa [hlength, Literal.digitsValue_zeros_append, Literal.digitsValue_zeros_append] at htext

/-- A decimal is written as a text of its value. -/
theorem positional_spec (d : Decimal) : Positional d.positional d.value := by
  by_cases hzero : d.digits = 0
  · have htext : d.positional = ['0'] := by rw [positional, hzero]; rfl
    have hvalue : d.value = digitsValue ['0'] := by rw [value, hzero]; simp [digitsValue]; rfl
    rw [htext, hvalue]
    exact .whole (Literal.digits_zeros 1) (List.cons_ne_nil _ _)
  · obtain ⟨ds, zeros, hsignificant, hne, hdigits, hsplit⟩ := significantDigits_spec hzero
    have hisEmpty : ds.isEmpty = false := List.isEmpty_eq_false_iff.2 hne
    have hvalue : d.value = digitsValue ds * 10 ^ (d.exponent + zeros) := by
      rw [value, ← hsplit, Nat.cast_mul, Nat.cast_pow, Nat.cast_ofNat, zpow_add₀ (by norm_num),
        zpow_natCast]
      ring
    rw [positional, hsignificant, hvalue]
    simp only [hisEmpty, Bool.false_eq_true, ↓reduceIte]
    generalize d.exponent + zeros = e
    obtain ⟨k, rfl | rfl⟩ := Int.eq_nat_or_neg e
    · rw [if_pos (Int.natCast_nonneg k), Int.toNat_natCast]
      exact positional_whole hdigits hne k
    · rw [neg_neg, Int.toNat_natCast]
      split
      · rename_i hle
        obtain rfl : k = 0 := by omega
        exact positional_whole hdigits hne 0
      · split
        · rename_i hfew
          exact positional_among hdigits hfew
        · rename_i hmany
          exact positional_below hdigits (Nat.not_lt.1 hmany)

/-! ## Reading -/

theorem Positional.exists_cons (h : Positional cs q) :
    ∃ c rest, cs = c :: rest ∧ c.isDigit = true := by
  cases h with
  | whole hwhole hne =>
    obtain ⟨c, rest, rfl⟩ := List.exists_cons_of_ne_nil hne
    exact ⟨c, rest, rfl, hwhole c List.mem_cons_self⟩
  | fraction hwhole hne =>
    rename_i whole fraction _
    obtain ⟨c, rest, rfl⟩ := List.exists_cons_of_ne_nil hne
    exact ⟨c, rest ++ '.' :: fraction, rfl, hwhole c List.mem_cons_self⟩

theorem Positional.isField (h : Positional cs q) : IsField cs := by
  cases h with
  | whole hwhole hne => exact hwhole.isField hne
  | fraction hwhole hne hfraction =>
    refine ⟨List.append_ne_nil_of_left_ne_nil hne _, fun c hc => ?_⟩
    rcases List.mem_append.1 hc with hc | hc
    · exact Literal.not_isBlank_of_isDigit (hwhole c hc)
    · rcases List.mem_cons.1 hc with rfl | hc
      · rfl
      · exact Literal.not_isBlank_of_isDigit (hfraction c hc)

/-- A positional text is read as a decimal of its value. -/
theorem Positional.exists_readDecimal (h : Positional cs q) :
    ∃ d, Literal.readDecimal cs = some d ∧ d.value = q := by
  cases h with
  | whole hwhole hne =>
    refine ⟨⟨digitsValue cs, 0⟩, ?_, ?_⟩
    · have htake : cs.takeWhile Char.isDigit = cs := List.takeWhile_eq_self_iff.2 hwhole
      have hdrop : cs.dropWhile Char.isDigit = [] := List.dropWhile_eq_nil_iff.2 hwhole
      simp [Literal.readDecimal, Literal.takeDigits, htake, hdrop, Literal.splitFraction,
        Literal.readExponent, hne]
    · simp [value]
  | fraction hwhole hne hfraction =>
    rename_i whole fraction
    refine ⟨⟨digitsValue (whole ++ fraction), -(fraction.length : Int)⟩, ?_, rfl⟩
    have htake : (whole ++ '.' :: fraction).takeWhile Char.isDigit = whole := by
      rw [List.takeWhile_append_of_pos hwhole, List.takeWhile_cons_of_neg (by decide),
        List.append_nil]
    have hdrop : (whole ++ '.' :: fraction).dropWhile Char.isDigit = '.' :: fraction := by
      rw [List.dropWhile_append_of_pos hwhole, List.dropWhile_cons_of_neg (by decide)]
    have htake' : fraction.takeWhile Char.isDigit = fraction :=
      List.takeWhile_eq_self_iff.2 hfraction
    have hdrop' : fraction.dropWhile Char.isDigit = [] := List.dropWhile_eq_nil_iff.2 hfraction
    simp [Literal.readDecimal, Literal.takeDigits, htake, hdrop, Literal.splitFraction, htake',
      hdrop', Literal.readExponent, hne]

end Decimal

/-! ## Words and digits -/

namespace Literal

variable {c : Char}

theorem toLower_of_isDigit (h : c.isDigit = true) : c.toLower = c := by
  have hbounds := bounds_of_isDigit h
  refine dif_neg fun hupper => ?_
  have hlow : 0x41 ≤ c.toNat := UInt32.le_iff_toNat_le.1 hupper.1
  omega

theorem readFloat_inf (negative : Bool) :
    readFloat (signed negative "inf".toList) = some (.ofMagnitude negative Binary64.infinity) := by
  cases negative <;> rfl

/-- A text with a digit behind the sign is none of the words. -/
theorem readFloat_signed (negative : Bool) (h : c.isDigit = true) (cs : List Char) :
    readFloat (signed negative (c :: cs)) =
      (readDecimal (c :: cs)).map fun d => .ofMagnitude negative d.magnitude := by
  have hbounds := bounds_of_isDigit h
  have hsplit : splitSign (signed negative (c :: cs)) = (negative, c :: cs) := by
    refine splitSign_signed negative fun d hd => ?_
    obtain rfl : c = d := Option.some.inj hd
    exact not_sign_of_isDigit h
  have hword (d : Char) (ds : List Char) (hd : 0x39 < d.toNat) :
      (c :: cs).map Char.toLower ≠ d :: ds := by
    rw [List.map_cons, toLower_of_isDigit h]
    intro heq
    obtain rfl : c = d := (List.cons.inj heq).1
    omega
  have hinf : (c :: cs).map Char.toLower ≠ "inf".toList := hword _ _ (by decide)
  have hinfinity : (c :: cs).map Char.toLower ≠ "infinity".toList := hword _ _ (by decide)
  have hnan : (c :: cs).map Char.toLower ≠ "nan".toList := hword _ _ (by decide)
  simp only [readFloat, hsplit, hinf, hinfinity, hnan, decide_false, Bool.or_self,
    Bool.false_eq_true, ↓reduceIte]

end Literal

/-! ## Numbers -/

namespace Binary64

open MetricIntake.Literal (signed)
open MetricIntake.Text (IsField)

/-- The same bits, or both not a number. -/
def Same (x y : Binary64) : Prop := x = y ∨ x.isNaN = true ∧ y.isNaN = true

theorem ofMagnitude_magnitude (x : Binary64) : ofMagnitude x.isNegative x.magnitude = x := by
  have hbits : x.bits.toNat < 2 * signWeight := x.bits.toNat_lt
  have hnat : (if x.isNegative then signWeight + x.magnitude else x.magnitude) = x.bits.toNat := by
    unfold isNegative magnitude
    rcases Nat.lt_or_ge x.bits.toNat signWeight with hlt | hle
    · simp [Nat.mod_eq_of_lt hlt, Nat.not_le.2 hlt]
    · have hmod : x.bits.toNat % signWeight = x.bits.toNat - signWeight := by
        rw [Nat.mod_eq_sub_mod hle, Nat.mod_eq_of_lt (by omega)]
      simp [hle, hmod]
  rw [ofMagnitude, hnat, UInt64.ofNat_toNat]

/-- A number is written with its sign, but not what is no number. -/
theorem toList_text (x : Binary64) :
    x.text.toList = if x.isNaN then "NaN".toList
      else signed x.isNegative
        (if x.isInfinite then "inf".toList else (Decimal.shortest x.magnitude).positional) := by
  have hunsigned : (if x.isInfinite then "inf"
        else String.ofList (Decimal.shortest x.magnitude).positional).toList =
      if x.isInfinite then "inf".toList else (Decimal.shortest x.magnitude).positional := by
    split
    · rfl
    · exact String.toList_ofList
  unfold text
  split
  · rfl
  · cases x.isNegative with
    | false => exact hunsigned
    | true =>
      rw [← hunsigned]
      exact String.toList_append

/-- What is neither an infinity nor beyond it is a number. -/
theorem magnitude_lt {x : Binary64} (hnan : x.isNaN = false) (hinfinite : x.isInfinite = false) :
    x.magnitude < infinity := by
  simp only [isNaN, isInfinite, decide_eq_false_iff_not, beq_eq_false_iff_ne] at hnan hinfinite
  omega

/-- Every number is read back from its text, with its sign. -/
theorem exists_readFloat_text (x : Binary64) :
    ∃ y, Literal.readFloat x.text.toList = some y ∧ x.Same y := by
  have hself := x.ofMagnitude_magnitude
  rw [toList_text]
  cases hnan : x.isNaN with
  | true => exact ⟨nan false, rfl, .inr ⟨hnan, rfl⟩⟩
  | false =>
    refine ⟨x, ?_, .inl rfl⟩
    rw [if_neg Bool.false_ne_true]
    cases hinfinite : x.isInfinite with
    | true =>
      have hmagnitude : x.magnitude = infinity := beq_iff_eq.1 hinfinite
      rw [if_pos rfl, Literal.readFloat_inf, ← hmagnitude, hself]
    | false =>
      have hpositional := (Decimal.shortest x.magnitude).positional_spec
      obtain ⟨c, cs, hcons, hdigit⟩ := hpositional.exists_cons
      obtain ⟨d, hread, hvalue⟩ := hpositional.exists_readDecimal
      have hmagnitude : d.magnitude = x.magnitude :=
        (Decimal.magnitude_congr hvalue).trans
          (Decimal.magnitude_shortest (magnitude_lt hnan hinfinite))
      rw [if_neg Bool.false_ne_true, hcons, Literal.readFloat_signed _ hdigit, ← hcons, hread,
        Option.map_some, hmagnitude, hself]

/-- The text of a number is one field. -/
theorem isField_text (x : Binary64) : IsField x.text.toList := by
  rw [toList_text]
  split
  · exact ⟨List.cons_ne_nil _ _, by simp [Text.isBlank]⟩
  · refine Literal.isField_signed _ ?_
    split
    · exact ⟨List.cons_ne_nil _ _, by simp [Text.isBlank]⟩
    · exact (Decimal.positional_spec _).isField

end Binary64
end MetricIntake
