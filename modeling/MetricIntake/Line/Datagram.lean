-- SUMMARY: A datagram as a self-contained run of lines.
import MetricIntake.Line.Basic
import MetricIntake.Line.Point

/-!
# Datagrams

A datagram carries whole lines; the last one needs no line feed. Blank lines
yield nothing, every other line yields a point or the reason why not.
-/

namespace MetricIntake.Datagram

/-- The points and errors of a datagram, in order. -/
def points (payload : List UInt8) : List (Except DecodeError Point) :=
  ((Line.segments payload).filterMap Line.item?).map (· >>= Point.ofLine)

end MetricIntake.Datagram
