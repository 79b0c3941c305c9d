-- SUMMARY: Decimals, their rounding to binary64, the shortest decimal that rounds to a given number, and positional text.
import MetricIntake.Number.Binary64

/-!
# Decimals

A decimal `digits * 10 ^ exponent` is rounded by exact arithmetic on naturals.
In the other direction a number is written with the fewest digits that round
back to it. Of two such decimals of the same length the nearer one is taken, and
of two equally near ones the larger. The text is positional, whatever the
magnitude: no exponent, and no point without a fraction.
-/

namespace MetricIntake

/-- The non-negative value `digits * 10 ^ exponent`. -/
structure Decimal where
  digits : Nat
  exponent : Int
  deriving DecidableEq, Repr

namespace Decimal

/-! ## Rounding -/

/-- The magnitude nearest to a decimal. Decimals of four hundred places and more
    on either side of the point are infinite or zero and are not computed. -/
def magnitude (d : Decimal) : Nat :=
  if d.digits = 0 then 0
  else if 400 < d.exponent then Binary64.infinity
  else if d.exponent + Nat.log2 d.digits + 1 < -400 then 0
  else Binary64.magnitudeOfRatio (d.digits * Nat.pow 10 d.exponent.toNat)
    (Nat.pow 10 (-d.exponent).toNat)

/-! ## Shortest decimal of a number -/

/-- The least `k` with a positive quotient below `10 ^ k`. -/
def scale (num den : Nat) : Int :=
  if den ≤ num then ((Nat.toDigits 10 (num / den)).length : Int)
  else 1 - ((Nat.toDigits 10 ((den - 1) / num)).length : Int)

/-- The decimal of `n` digits nearest to the quotient among those that round to
    the magnitude `m`: the grid of that length has one neighbour on each side. -/
def ofLength? (m num den : Nat) (n : Nat) : Option Decimal :=
  let e := scale num den - n
  let num' := num * Nat.pow 10 (-e).toNat
  let den' := den * Nat.pow 10 e.toNat
  let low : Decimal := ⟨num' / den', e⟩
  let high : Decimal := ⟨num' / den' + 1, e⟩
  match low.magnitude == m, high.magnitude == m with
  | true, true => if 2 * (num' % den') < den' then some low else some high
  | true, false => some low
  | false, true => some high
  | false, false => none

/-- The exact value of a finite magnitude. -/
def exact (m : Nat) : Decimal :=
  let e := Binary64.exponent m
  ⟨Binary64.significand m * Nat.pow 2 e.toNat * Nat.pow 5 (-e).toNat, min 0 e⟩

/-- The shortest decimal that rounds to a finite magnitude. Seventeen digits are
    always enough; the exact value stands behind them. -/
def shortest (m : Nat) : Decimal :=
  if m = 0 then ⟨0, 0⟩
  else
    let e := Binary64.exponent m
    let num := Binary64.significand m * Nat.pow 2 e.toNat
    let den := Nat.pow 2 (-e).toNat
    ((List.range 17).findSome? fun n => ofLength? m num den (n + 1)).getD (exact m)

/-! ## Text -/

/-- The digits from left to right without trailing zeros, and how many zeros
    were dropped. Zero keeps none. -/
def significantDigits (n : Nat) : List Char × Nat :=
  let zeros := (Nat.toDigits 10 n).reverse.takeWhile (· == '0')
  let rest := (Nat.toDigits 10 n).reverse.dropWhile (· == '0')
  (rest.reverse, zeros.length)

/-- Positional text: digits, zeros up to the point, and a fraction only if there
    is one. -/
def positional (d : Decimal) : List Char :=
  let (ds, zeros) := significantDigits d.digits
  if ds.isEmpty then ['0']
  else
    let e := d.exponent + zeros
    let places := (-e).toNat
    if 0 ≤ e then ds ++ List.replicate e.toNat '0'
    else if places < ds.length then
      ds.take (ds.length - places) ++ '.' :: ds.drop (ds.length - places)
    else '0' :: '.' :: List.replicate (places - ds.length) '0' ++ ds

end Decimal

/-- The text of a number: `NaN`, a signed `inf`, or the positional text of its
    shortest decimal. The sign of zero is kept. -/
def Binary64.text (x : Binary64) : String :=
  if x.isNaN then "NaN"
  else
    let unsigned :=
      if x.isInfinite then "inf" else String.ofList (Decimal.shortest x.magnitude).positional
    if x.isNegative then "-" ++ unsigned else unsigned

end MetricIntake
