-- SUMMARY: The literals of text arguments: booleans and integers, long integers, floats, quoted strings, escaped Unicode.
import MetricIntake.Number.Literal
import MetricIntake.Text.Utf8

/-!
# Text arguments

Old protocols write values as lines of text. Each function below reads one kind
of line; `none` means that the line is no literal of that kind. A line that is
not UTF-8 reads as the empty text, which no number literal matches.
-/

namespace MetricIntake.Pickle.TextArgument

/-- The characters of a line. -/
def characters (line : List UInt8) : List Char :=
  (Utf8.decode? line).getD []

/-- A line that stands for a number of 64 bits, or for a boolean. -/
inductive Small where
  | bool (b : Bool)
  | int (i : Int)
  deriving DecidableEq, Repr

/-- `00` and `01` are booleans, everything else is an integer. -/
def small? (line : List UInt8) : Option Small :=
  match characters line with
  | ['0', '0'] => some (.bool false)
  | ['0', '1'] => some (.bool true)
  | cs => (Literal.readInt64 cs).toOption.map .int

/-- A memo key of 32 bits. -/
def memoId? (line : List UInt8) : Option Nat :=
  (Literal.readNatBelow UInt32.size (characters line)).toOption

/-- A float. -/
def float? (line : List UInt8) : Option Binary64 :=
  Literal.readFloat (characters line)

/-! ## Long integers -/

/-- Digits of any number, between which and after which underscores may stand. -/
def unsigned? (cs : List Char) : Option Nat :=
  if cs.isEmpty || cs.head? = some '_' || !cs.all (fun c => c.isDigit || c = '_') then none
  else some (Literal.digitsValue (cs.filter Char.isDigit))

/-- The text after one plus sign, if a second one does not follow. -/
def dropPlus (cs : List Char) : List Char :=
  match cs with
  | '+' :: '+' :: _ => cs
  | '+' :: rest => rest
  | _ => cs

/-- A signed integer of any size; a plus sign may not follow a minus sign. -/
def long? (line : List UInt8) : Option Int :=
  match characters line with
  | '-' :: '+' :: _ => none
  | '-' :: cs => (unsigned? cs).map fun n => -(n : Int)
  | cs => (unsigned? (dropPlus cs)).map fun n => (n : Int)

/-! ## Strings -/

/-- The value of a hexadecimal digit. -/
def hexDigit? (b : UInt8) : Option Nat :=
  let n := b.toNat
  if 0x30 ≤ n && n ≤ 0x39 then some (n - 0x30)
  else if 0x41 ≤ n && n ≤ 0x46 then some (n - 0x41 + 10)
  else if 0x61 ≤ n && n ≤ 0x66 then some (n - 0x61 + 10)
  else none

/-- The value of a run of hexadecimal digits. -/
def hex? (ds : List UInt8) : Option Nat :=
  ds.foldl (fun acc b => acc.bind fun n => (hexDigit? b).map (16 * n + ·)) (some 0)

/-- The line without the quotation marks around it, if they are the same. -/
def unquote (line : List UInt8) : List UInt8 :=
  if 2 ≤ line.length && line.head? == line.getLast?
      && (line.head? == some 0x22 || line.head? == some 0x27) then
    (line.drop 1).dropLast
  else line

/-- The byte that a letter after a backslash stands for. -/
def shortEscape? (b : UInt8) : Option UInt8 :=
  match Char.ofNat b.toNat with
  | '\\' => some 0x5C
  | 'a' => some 0x07
  | 'b' => some 0x08
  | 't' => some 0x09
  | 'n' => some 0x0A
  | 'v' => some 0x0B
  | 'f' => some 0x0C
  | 'r' => some 0x0D
  | _ => none

/-- The bytes of a string with its escapes resolved. -/
def unescape? : List UInt8 → Option (List UInt8)
  | [] => some []
  | 0x5C :: 0x78 :: h :: l :: rest => do
    let n ← hex? [h, l]
    return UInt8.ofNat n :: (← unescape? rest)
  | 0x5C :: b :: rest => do
    let c ← shortEscape? b
    return c :: (← unescape? rest)
  | b :: rest => if b = 0x5C then none else (unescape? rest).map (b :: ·)

/-- The character with a code point; surrogates have none. -/
def character? (n : Nat) : Option Char :=
  if n.isValidChar then some (Char.ofNat n) else none

/-- The characters of a line in which a byte stands for the character of its
    number and escapes stand for any character. -/
def unicode? : List UInt8 → Option (List Char)
  | [] => some []
  | 0x5C :: 0x75 :: a :: b :: c :: d :: rest => do
    let ch ← (← hex? [a, b, c, d]) |> character?
    return ch :: (← unicode? rest)
  | 0x5C :: 0x55 :: a :: b :: c :: d :: e :: f :: g :: h :: rest => do
    let ch ← (← hex? [a, b, c, d, e, f, g, h]) |> character?
    return ch :: (← unicode? rest)
  | b :: rest => if b = 0x5C then none else (unicode? rest).map (Char.ofNat b.toNat :: ·)

end MetricIntake.Pickle.TextArgument
