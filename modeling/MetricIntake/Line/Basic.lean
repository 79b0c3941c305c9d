-- SUMMARY: Lines as bytes: cutting at line feeds, the trailing carriage return, blank lines, and the text of a line.
import MetricIntake.Text.Blank
import MetricIntake.Text.Utf8
import MetricIntake.DecodeError

/-!
# Lines

A line is what stands between two line feeds, as bytes. One carriage return at
its end belongs to the line break. Whether a line is blank is decided on bytes,
before anything is known about its encoding.
-/

namespace MetricIntake.Line

/-- The line feed. -/
def feed : UInt8 := 0x0A

/-- The carriage return. -/
def carriageReturn : UInt8 := 0x0D

/-- The segments between line feeds, the rest after the last one included. -/
def segments (bytes : List UInt8) : List (List UInt8) :=
  bytes.splitOn feed

/-- The line without one carriage return at its end. -/
def stripReturn (line : List UInt8) : List UInt8 :=
  if line.getLast? = some carriageReturn then line.dropLast else line

/-- Whether a line holds ASCII blanks only. -/
def isBlank (line : List UInt8) : Bool :=
  line.all Text.isBlankByte

/-- The text of a line that is not blank. -/
def text (line : List UInt8) : Except DecodeError String :=
  match Utf8.text? line with
  | some s => .ok s
  | none => .error .utf8

/-- What a whole line yields: nothing if it is blank, else its text without the
    line break. -/
def item? (line : List UInt8) : Option (Except DecodeError String) :=
  let line := stripReturn line
  if isBlank line then none else some (text line)

end MetricIntake.Line
