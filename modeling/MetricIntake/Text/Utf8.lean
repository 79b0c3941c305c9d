-- SUMMARY: UTF-8: one scanner over bytes, read strictly (refuse) or leniently (replace), and the writer.

/-!
# UTF-8

Bytes are read one at a time. The scanner either stands between characters or
owes some continuation bytes, and it yields one item per character and one per
maximal ill-formed part. Strict reading refuses a text with an ill-formed part,
lenient reading puts U+FFFD in its place.

The range of the first continuation byte depends on the leading byte. This
rules out overlong forms, surrogates and everything above U+10FFFF.
-/

namespace MetricIntake.Utf8

/-! ## The scanner -/

/-- A character that has begun: how many bytes it still needs, the range of the
    next one, and the bits read so far. -/
structure Partial where
  owed : Nat
  low : UInt8
  high : UInt8
  bits : Nat
  deriving DecidableEq, Repr

/-- What a leading byte announces: a whole character, the start of a longer
    one, or nothing well-formed. -/
inductive Lead where
  | whole (c : Char)
  | starts (p : Partial)
  | bad
  deriving DecidableEq, Repr

/-- The role of a byte that stands between characters. -/
def lead (b : UInt8) : Lead :=
  let n := b.toNat
  if n < 0x80 then .whole (Char.ofNat n)
  else if n < 0xC2 then .bad
  else if n < 0xE0 then .starts ⟨1, 0x80, 0xBF, n - 0xC0⟩
  else if n = 0xE0 then .starts ⟨2, 0xA0, 0xBF, 0⟩
  else if n = 0xED then .starts ⟨2, 0x80, 0x9F, 0x0D⟩
  else if n < 0xF0 then .starts ⟨2, 0x80, 0xBF, n - 0xE0⟩
  else if n = 0xF0 then .starts ⟨3, 0x90, 0xBF, 0⟩
  else if n < 0xF4 then .starts ⟨3, 0x80, 0xBF, n - 0xF0⟩
  else if n = 0xF4 then .starts ⟨3, 0x80, 0x8F, 4⟩
  else .bad

/-- The scanner between two bytes. Items stand newest first; `none` is an
    ill-formed part. -/
structure Scanner where
  items : List (Option Char) := []
  pending : Option Partial := none
  deriving DecidableEq, Repr

namespace Scanner

/-- Reads a byte between characters. -/
def begin (s : Scanner) (b : UInt8) : Scanner :=
  match lead b with
  | .whole c => ⟨some c :: s.items, none⟩
  | .starts p => ⟨s.items, some p⟩
  | .bad => ⟨none :: s.items, none⟩

/-- Reads one byte. A byte that cannot continue the pending character closes it
    as ill-formed and is read again between characters. -/
def step (s : Scanner) (b : UInt8) : Scanner :=
  match s.pending with
  | none => s.begin b
  | some p =>
    if p.low ≤ b && b ≤ p.high then
      let bits := p.bits * 64 + (b.toNat - 0x80)
      if p.owed ≤ 1 then ⟨some (Char.ofNat bits) :: s.items, none⟩
      else ⟨s.items, some ⟨p.owed - 1, 0x80, 0xBF, bits⟩⟩
    else begin ⟨none :: s.items, none⟩ b

/-- The items in order, a character cut short at the end being ill-formed. -/
def finish (s : Scanner) : List (Option Char) :=
  match s.pending with
  | none => s.items.reverse
  | some _ => (none :: s.items).reverse

end Scanner

/-- The characters and ill-formed parts of a byte string, in order. -/
def scan (bytes : List UInt8) : List (Option Char) :=
  (bytes.foldl Scanner.step {}).finish

/-! ## Reading and writing -/

/-- The characters of a well-formed byte string. -/
def decode? (bytes : List UInt8) : Option (List Char) :=
  (scan bytes).mapM id

/-- The text of a well-formed byte string. -/
def text? (bytes : List UInt8) : Option String :=
  (decode? bytes).map String.ofList

/-- The text of any byte string: U+FFFD stands for each ill-formed part. -/
def textLenient (bytes : List UInt8) : String :=
  String.ofList ((scan bytes).map (·.getD '\ufffd'))

/-- The bytes of a text. -/
def encode (s : String) : List UInt8 :=
  s.toByteArray.data.toList

end MetricIntake.Utf8
