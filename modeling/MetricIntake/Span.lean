-- SUMMARY: Spans of time: whole nanoseconds up to a largest span, saturating product, and their text.

/-!
# Spans

A span of time is a number of nanoseconds below `2 ^ 64` seconds. Arithmetic
that would leave this range stops at the largest span. Moments of a run are
counted in nanoseconds from its start and are plain naturals.
-/

namespace MetricIntake

/-- Nanoseconds in a second. -/
def nanosPerSecond : Nat := 1000000000

/-- Nanoseconds in a millisecond. -/
def nanosPerMilli : Nat := 1000000

/-- Nanoseconds in a microsecond. -/
def nanosPerMicro : Nat := 1000

/-- Nanoseconds of the largest span. -/
def Span.limit : Nat := UInt64.size * nanosPerSecond - 1

/-- A span of time. -/
structure Span where
  nanos : Nat
  le_limit : nanos ≤ Span.limit
  deriving DecidableEq, Repr

namespace Span

/-- The span of a number of nanoseconds, or the largest one. -/
def ofNanos (n : Nat) : Span := ⟨min n limit, Nat.min_le_right _ _⟩

def ofMillis (n : Nat) : Span := ofNanos (n * nanosPerMilli)

def ofSeconds (n : Nat) : Span := ofNanos (n * nanosPerSecond)

/-- Whole seconds. -/
def seconds (s : Span) : Nat := s.nanos / nanosPerSecond

/-- Nanoseconds beyond the whole seconds. -/
def subsecond (s : Span) : Nat := s.nanos % nanosPerSecond

/-- Whole milliseconds. -/
def millis (s : Span) : Nat := s.nanos / nanosPerMilli

/-- The span `k` times as long, or the largest one. -/
def scale (s : Span) (k : UInt32) : Span := ofNanos (s.nanos * k.toNat)

/-- The shorter of two spans. -/
def min (s t : Span) : Span := if s.nanos ≤ t.nanos then s else t

@[simp] theorem nanos_ofNanos (n : Nat) : (ofNanos n).nanos = Min.min n limit := rfl

@[simp] theorem nanos_min (s t : Span) : (s.min t).nanos = Min.min s.nanos t.nanos := by
  unfold min
  split <;> omega

/-! ## Text -/

/-- A number in units of which each holds `unit` nanoseconds, `places` decimal
    places, without trailing zeros. -/
def inUnits (nanos unit places : Nat) : String :=
  let digits := Nat.toDigits 10 (nanos % unit)
  let fraction := List.replicate (places - digits.length) '0' ++ digits
  let shown := (fraction.reverse.dropWhile (· == '0')).reverse
  toString (nanos / unit) ++ if shown.isEmpty then "" else "." ++ String.ofList shown

/-- The span in the largest of its units in which it is at least one, with a
    fraction only if it has one. -/
def text (s : Span) : String :=
  if nanosPerSecond ≤ s.nanos then inUnits s.nanos nanosPerSecond 9 ++ "s"
  else if nanosPerMilli ≤ s.nanos then inUnits s.nanos nanosPerMilli 6 ++ "ms"
  else if nanosPerMicro ≤ s.nanos then inUnits s.nanos nanosPerMicro 3 ++ "µs"
  else toString s.nanos ++ "ns"

end Span
end MetricIntake
