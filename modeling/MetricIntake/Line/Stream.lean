-- SUMMARY: What a whole byte stream yields line by line, under a bound on the length of a line.
import MetricIntake.Line.Basic
import MetricIntake.Line.Point

/-!
# Lines of a whole stream

The meaning of a stream of lines when all of it is at hand: cut it at every line
feed, refuse what is too long, skip what is blank, read the rest as text. A
reader that receives the stream in pieces has to yield the same items.
-/

namespace MetricIntake.Line

/-- What a line of at most `max` bytes, its carriage return counted, yields. -/
def bounded? (max : Nat) (line : List UInt8) : Option (Except DecodeError String) :=
  if max < line.length then some (.error (.lineTooLong max)) else item? line

/-- The items of a whole stream, in order. -/
def ofStream (max : Nat) (bytes : List UInt8) : List (Except DecodeError String) :=
  (segments bytes).filterMap (bounded? max)

end MetricIntake.Line
