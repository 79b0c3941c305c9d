-- SUMMARY: Number literals: signed and unsigned integers of bounded width with the cause of a refusal, and float literals.
import MetricIntake.Number.Decimal

/-!
# Number literals

An integer literal is an optional sign and at least one ASCII digit. A minus
sign belongs to signed integers only. The first fault from the left decides
between a bad digit and a value out of bounds.

A float literal is an optional sign and either one of the words `inf`,
`infinity` and `nan` in any case, or digits with an optional point, a digit on
at least one side of it, and an optional exponent. An exponent of six digits and
more may be cut short, which shows only beside as many zeros.
-/

namespace MetricIntake.Literal

/-! ## Digits and signs -/

def digitValue (c : Char) : Nat := c.toNat - '0'.toNat

/-- A run of digits that is being read: the value of its full blocks, and the
    value and the scale of the block that has begun. -/
structure DigitRun where
  high : Nat := 0
  low : Nat := 0
  scale : Nat := 1
  deriving DecidableEq, Repr

namespace DigitRun

/-- A block is full at 256 digits. Blocks spare a long run the multiplication of
    its whole value at every digit. -/
def fullScale : Nat := Nat.pow 10 256

def value (r : DigitRun) : Nat := r.high * r.scale + r.low

/-- Appends a digit. -/
def push (r : DigitRun) (d : Nat) : DigitRun :=
  if r.scale < fullScale then ⟨r.high, 10 * r.low + d, 10 * r.scale⟩
  else ⟨r.value, d, 10⟩

/-- Blocks do not show in the value. -/
theorem value_push (r : DigitRun) (d : Nat) : (r.push d).value = 10 * r.value + d := by
  unfold push
  split
  · simp only [value, Nat.mul_add, Nat.mul_left_comm r.high, Nat.add_assoc]
  · simp only [value, Nat.mul_comm 10]

theorem value_foldl_push (ds : List Nat) (r : DigitRun) :
    (ds.foldl push r).value = ds.foldl (fun n d => 10 * n + d) r.value := by
  induction ds generalizing r with
  | nil => rfl
  | cons d ds ih => rw [List.foldl_cons, List.foldl_cons, ih, value_push]

end DigitRun

/-- The value of a run of digits. -/
def digitsValue (cs : List Char) : Nat :=
  (cs.foldl (fun r c => r.push (digitValue c)) ({} : DigitRun)).value

theorem digitsValue_eq_foldl (cs : List Char) :
    digitsValue cs = cs.foldl (fun n c => 10 * n + digitValue c) 0 := by
  have h := DigitRun.value_foldl_push (cs.map digitValue) {}
  rwa [List.foldl_map, List.foldl_map] at h

/-- The value of a digit of a radix up to sixteen, letters in either case. -/
def radixDigit? (radix : Nat) (c : Char) : Option Nat :=
  let v? :=
    if c.isDigit then some (digitValue c)
    else if 'a' ≤ c ∧ c ≤ 'f' then some (c.toNat - 'a'.toNat + 10)
    else if 'A' ≤ c ∧ c ≤ 'F' then some (c.toNat - 'A'.toNat + 10)
    else none
  v?.filter (· < radix)

/-- The number that digits of a radix up to sixteen denote; no digits denote
    zero. -/
def readRadix? (radix : Nat) (cs : List Char) : Option Nat :=
  cs.foldlM (fun n c => (radixDigit? radix c).map (radix * n + ·)) 0

/-- The run of digits at the front, and what follows it. -/
def takeDigits (cs : List Char) : List Char × List Char :=
  (cs.takeWhile Char.isDigit, cs.dropWhile Char.isDigit)

/-- Whether a minus sign stands in front, and the text without its sign. -/
def splitSign : List Char → Bool × List Char
  | '+' :: cs => (false, cs)
  | '-' :: cs => (true, cs)
  | cs => (false, cs)

/-! ## Integers -/

/-- Why a text is not an integer of the wanted width. -/
inductive IntegerFault where
  | empty
  | invalidDigit
  | tooLarge
  | tooSmall
  deriving DecidableEq, Repr

def IntegerFault.message : IntegerFault → String
  | .empty => "cannot parse integer from empty string"
  | .invalidDigit => "invalid digit found in string"
  | .tooLarge => "number too large to fit in target type"
  | .tooSmall => "number too small to fit in target type"

/-- Reads digits up to a limit, from the left; `beyond` is the fault of a value
    above it. -/
def readBounded (limit : Nat) (beyond : IntegerFault) (cs : List Char) :
    Except IntegerFault Nat :=
  if cs.isEmpty then .error .invalidDigit
  else cs.foldlM (fun n c =>
    if c.isDigit then
      let n' := 10 * n + digitValue c
      if n' ≤ limit then .ok n' else .error beyond
    else .error .invalidDigit) 0

/-- The first number beyond the signed integers of 64 bits. -/
def int64Bound : Nat := UInt64.size / 2

/-- A signed integer of 64 bits. -/
def readInt64 (cs : List Char) : Except IntegerFault Int :=
  if cs.isEmpty then .error .empty
  else match splitSign cs with
    | (true, ds) => (readBounded int64Bound .tooSmall ds).map fun n => -(n : Int)
    | (false, ds) => (readBounded (int64Bound - 1) .tooLarge ds).map fun n => (n : Int)

/-- An unsigned integer below a bound; a plus sign is allowed. -/
def readNatBelow (bound : Nat) (cs : List Char) : Except IntegerFault Nat :=
  match cs with
  | [] => .error .empty
  | '+' :: ds => readBounded (bound - 1) .tooLarge ds
  | ds => readBounded (bound - 1) .tooLarge ds

/-! ## Floats -/

/-- Exponent digits count only while the number so far is below this bound, so
    that an exponent stays small whatever its length. -/
def exponentBound : Nat := 65536

/-- The value of the digits of an exponent. -/
def exponentValue (cs : List Char) : Nat :=
  cs.foldl (fun n c => if n < exponentBound then 10 * n + digitValue c else n) 0

/-- The exponent after `e` or `E`; a text without one has exponent zero. -/
def readExponent : List Char → Option Int
  | [] => some 0
  | c :: cs =>
    if c = 'e' || c = 'E' then
      let (negative, ds) := splitSign cs
      if ds.isEmpty || !ds.all Char.isDigit then none
      else some (if negative then -(exponentValue ds : Int) else exponentValue ds)
    else none

/-- The fraction digits after a point, and what follows them. -/
def splitFraction : List Char → List Char × List Char
  | '.' :: cs => takeDigits cs
  | cs => ([], cs)

/-- An unsigned decimal literal. -/
def readDecimal (cs : List Char) : Option Decimal :=
  let (whole, rest) := takeDigits cs
  let (fraction, rest) := splitFraction rest
  if whole.isEmpty && fraction.isEmpty then none
  else (readExponent rest).map fun e =>
    ⟨digitsValue (whole ++ fraction), e - fraction.length⟩

/-- A float literal, rounded to the nearest number. -/
def readFloat (cs : List Char) : Option Binary64 :=
  let (negative, body) := splitSign cs
  let word := body.map Char.toLower
  if word = "inf".toList || word = "infinity".toList then
    some (.ofMagnitude negative Binary64.infinity)
  else if word = "nan".toList then some (.nan negative)
  else (readDecimal body).map fun d => .ofMagnitude negative d.magnitude

end MetricIntake.Literal
