-- SUMMARY: Data points: a name, a representable timestamp and a value, and their one-line text.
import MetricIntake.DecodeError

/-!
# Points

A point is one sample of a metric. Its timestamp counts seconds from 1970 and
lies within the years -262143 to 262142 of the calendar; a point outside them
cannot be built.
-/

namespace MetricIntake

/-! ## Timestamps -/

/-- The first second of the year -262143. -/
def Timestamp.first : Int := -8334601228800

/-- The last second of the year 262142. -/
def Timestamp.last : Int := 8210266876799

/-- Seconds since 1970 within the calendar. -/
structure Timestamp where
  seconds : Int
  first_le : Timestamp.first ≤ seconds
  le_last : seconds ≤ Timestamp.last
  deriving DecidableEq, Repr

/-- The timestamp of a count of seconds, if the calendar has it. -/
def Timestamp.ofSeconds? (seconds : Int) : Option Timestamp :=
  if h : Timestamp.first ≤ seconds ∧ seconds ≤ Timestamp.last then
    some ⟨seconds, h.1, h.2⟩
  else none

@[simp] theorem Timestamp.ofSeconds?_seconds (t : Timestamp) :
    Timestamp.ofSeconds? t.seconds = some t := by
  simp [Timestamp.ofSeconds?, t.first_le, t.le_last]

/-! ## Points -/

/-- One sample of a metric. -/
structure Point where
  name : String
  timestamp : Timestamp
  value : Binary64
  deriving DecidableEq, Repr

namespace Point

/-- Builds a point from seconds since 1970. -/
def ofUnix (name : String) (seconds : Int) (value : Binary64) : Except DecodeError Point :=
  match Timestamp.ofSeconds? seconds with
  | some timestamp => .ok ⟨name, timestamp, value⟩
  | none => .error (.timestampRange seconds)

/-- The line that denotes a point: name, value and timestamp. -/
def text (p : Point) : String :=
  p.name ++ " " ++ p.value.text ++ " " ++ toString p.timestamp.seconds

end Point
end MetricIntake
