-- SUMMARY: Quoted texts and characters in messages: delimiters, short escapes, and hexadecimal escapes.
import MetricIntake.Text.Printable

/-!
# Quoting

Messages show the text they complain about between quotation marks. The
delimiter in use, the backslash and five controls have a short escape; any other
character that is not printable is written by its code point in lower-case
hexadecimal, without padding.
-/

namespace MetricIntake.Text

/-- A code point between braces, as in `\u{1b}`. -/
def codeEscape (c : Char) : List Char :=
  '\\' :: 'u' :: '\x7b' :: Nat.toDigits 16 c.toNat ++ ['\x7d']

/-- One character between delimiters `delim`. -/
def escape (delim c : Char) : List Char :=
  if c = delim || c = '\\' then ['\\', c]
  else if c = '\n' then ['\\', 'n']
  else if c = '\r' then ['\\', 'r']
  else if c = '\t' then ['\\', 't']
  else if c.toNat = 0 then ['\\', '0']
  else if isPrintable c then [c]
  else codeEscape c

/-- A text in double quotes; a single quote stands for itself. -/
def quote (s : String) : String :=
  String.ofList ('"' :: s.toList.flatMap (escape '"') ++ ['"'])

/-- A character in single quotes; a double quote stands for itself. -/
def quoteChar (c : Char) : String :=
  String.ofList ('\'' :: escape '\'' c ++ ['\''])

end MetricIntake.Text
