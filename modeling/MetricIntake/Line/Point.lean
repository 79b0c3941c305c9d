-- SUMMARY: One line of text read as a point: three fields, a float and a timestamp.
import MetricIntake.Text.Blank
import MetricIntake.Point

/-!
# The point of a line

A line has exactly three fields: the name, the value and the timestamp. The
faults are looked for in this order: number of fields, value, timestamp, range
of the timestamp.
-/

namespace MetricIntake

/-- The value that a token denotes. -/
def Point.readValue (token : List Char) : Except DecodeError Binary64 :=
  match Literal.readFloat token with
  | some x => .ok x
  | none => .error (.value (String.ofList token))

/-- The seconds that a token denotes. -/
def Point.readSeconds (token : List Char) : Except DecodeError Int :=
  (Literal.readInt64 token).mapError (.timestamp (String.ofList token))

/-- The point that a line denotes. -/
def Point.ofLine (line : String) : Except DecodeError Point :=
  match Text.fields line.toList with
  | [name, value, timestamp] => do
    let value ← Point.readValue value
    let seconds ← Point.readSeconds timestamp
    Point.ofUnix (String.ofList name) seconds value
  | fields => .error (.fieldCount fields.length)

end MetricIntake
