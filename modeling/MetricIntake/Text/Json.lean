-- SUMMARY: Texts as JSON string literals.

/-!
# JSON strings

Inside the quotes a quotation mark, a backslash and the controls are escaped:
five controls by a letter, the others by four hexadecimal digits in lower case.
All else stands for itself.
-/

namespace MetricIntake.Text

/-- A control character by its number. -/
def jsonCodeEscape (c : Char) : List Char :=
  let digits := Nat.toDigits 16 c.toNat
  '\\' :: 'u' :: List.replicate (4 - digits.length) '0' ++ digits

/-- A character inside a JSON string. -/
def jsonEscape (c : Char) : List Char :=
  if c = '"' || c = '\\' then ['\\', c]
  else if c = '\n' then ['\\', 'n']
  else if c = '\r' then ['\\', 'r']
  else if c = '\t' then ['\\', 't']
  else if c.toNat = 0x08 then ['\\', 'b']
  else if c.toNat = 0x0C then ['\\', 'f']
  else if c.toNat < 0x20 then jsonCodeEscape c
  else [c]

/-- The JSON string that denotes a text. -/
def jsonString (s : String) : String :=
  String.ofList ('"' :: s.toList.flatMap jsonEscape ++ ['"'])

end MetricIntake.Text
