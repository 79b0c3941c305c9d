-- SUMMARY: Binary64 numbers as bits: sign and magnitude, exact value of a magnitude, and rounding of a quotient to nearest.

/-!
# Binary64 numbers

A value travels from the wire to the sink without any arithmetic, so it is kept
as its 64 bits and equality is equality of bits. The only operation is rounding:
the text and integer readers round an exact quotient of naturals to the nearest
number, and a tie goes to the even significand.

Magnitudes (the bits without the sign) are ordered like the values they stand
for. The exponent field sits above the significand, so a significand that rounds
up to the next power of two carries into the exponent by plain addition, and the
same carry leads from the largest finite number to infinity.
-/

namespace MetricIntake

/-- A binary64 number by its bits. -/
structure Binary64 where
  bits : UInt64
  deriving DecidableEq, Repr, Inhabited

namespace Binary64

/-! ## Sign and magnitude -/

/-- The weight of the leading bit of a significand, which is not stored. -/
def leading : Nat := 4503599627370496

/-- The weight of the sign among the bits. -/
def signWeight : Nat := UInt64.size / 2

/-- The magnitude of the infinities; anything above is not a number. -/
def infinity : Nat := 2047 * leading

def isNegative (x : Binary64) : Bool := signWeight ≤ x.bits.toNat

/-- The bits without the sign. -/
def magnitude (x : Binary64) : Nat := x.bits.toNat % signWeight

def isNaN (x : Binary64) : Bool := infinity < x.magnitude

def isInfinite (x : Binary64) : Bool := x.magnitude == infinity

def ofMagnitude (negative : Bool) (m : Nat) : Binary64 :=
  ⟨UInt64.ofNat (if negative then signWeight + m else m)⟩

/-- The value that the word for "not a number" stands for. -/
def nan (negative : Bool) : Binary64 := ofMagnitude negative (infinity + leading / 2)

/-- A finite magnitude stands for `significand m * 2 ^ exponent m`. -/
def significand (m : Nat) : Nat :=
  if m < leading then m else leading + m % leading

/-- The exponent of the last place of a finite magnitude. -/
def exponent (m : Nat) : Int :=
  if m < leading then -1074 else (m / leading : Nat) - 1075

/-! ## Rounding -/

/-- The nearest natural to a quotient, the even one of two. -/
def divNearest (num den : Nat) : Nat :=
  let q := num / den
  let r := num % den
  if 2 * r < den then q else if den < 2 * r then q + 1 else q + q % 2

/-- The exponent of the last place of the number nearest to a positive quotient:
    52 below its binary logarithm, and never under that of the least number. -/
def lastPlace (num den : Nat) : Int :=
  let k : Int := (Nat.log2 num : Int) - Nat.log2 den
  let log := if num * Nat.pow 2 (-k).toNat < den * Nat.pow 2 k.toNat then k - 1 else k
  max (-1074) (log - 52)

/-- The magnitude nearest to a quotient. -/
def magnitudeOfRatio (num den : Nat) : Nat :=
  if num = 0 then 0
  else
    let e := lastPlace num den
    min infinity <|
      (e + 1074).toNat * leading
        + divNearest (num * Nat.pow 2 (-e).toNat) (den * Nat.pow 2 e.toNat)

/-- The number nearest to an integer. -/
def ofInt (i : Int) : Binary64 :=
  ofMagnitude (i < 0) (magnitudeOfRatio i.natAbs 1)

end Binary64
end MetricIntake
