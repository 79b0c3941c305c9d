-- SUMMARY: What a connection delivers over time, and what serving it to the end amounts to.
import MetricIntake.Point
import MetricIntake.Span
import MetricIntake.IoError

/-!
# Connections

The peer of a connection is described by what successive reads meet: each read
waits for some time and then gets bytes, an error, or the end of the stream; or
it never gets anything. Serving a connection is a function of this description.
Time moves only while a read waits.

Points go to the sink as soon as they are decoded, so the outcome of a
connection lists the points that were ingested beside its result.
-/

namespace MetricIntake.Connection

/-! ## The peer -/

/-- What a read gets. -/
inductive Arrival where
  | bytes (chunk : List UInt8)
  | failure (error : IoError)
  | closed
  | never
  deriving DecidableEq, Repr

/-- A read: how many nanoseconds it waits, and what it gets. -/
structure Read where
  wait : Nat
  arrival : Arrival
  deriving DecidableEq, Repr

/-- The reads of a connection, in order. After the last one the stream has
    ended. -/
abbrev Peer := List Read

/-! ## The outcome -/

/-- Why serving a connection ended early. -/
inductive Fault where
  | io (error : IoError)
  | decode (error : DecodeError)
  | idle (limit : Span)
  deriving DecidableEq, Repr

/-- The text of an error of the system is not ours to choose; its number stands
    for it. -/
def errorText : IoError → String
  | .system n => "os error " ++ toString n
  | .made _ message => message

def Fault.message : Fault → String
  | .io e => "IO error: " ++ errorText e
  | .decode e => "Decode error: " ++ e.message
  | .idle limit => "Idle timeout after " ++ limit.text

/-- What a connection came to. -/
structure Summary where
  /-- Points given to the sink. -/
  points : Nat := 0
  /-- Lines refused. -/
  skipped : Nat := 0
  deriving DecidableEq, Repr

/-- How serving a connection ended: with a result at some moment, or not at
    all. -/
inductive Ending where
  | returned (moment : Nat) (result : Except Fault Summary)
  | never
  deriving Repr

/-- The whole effect of serving a connection. -/
structure Outcome where
  /-- Points given to the sink, in order. -/
  ingested : List Point := []
  /-- Why lines were refused, in order. -/
  refused : List DecodeError := []
  ending : Ending
  deriving Repr

/-- Whether a wait that started at `since` outlasts its limit before `moment`;
    what is ready exactly at the limit is in time. -/
def overdue (limit : Option Span) (since moment : Nat) : Option (Span × Nat) :=
  match limit with
  | none => none
  | some l => if since + l.nanos < moment then some (l, since + l.nanos) else none

/-- The end of a wait for something that never comes. -/
def endlessly (limit : Option Span) (since : Nat) : Ending :=
  match limit with
  | none => .never
  | some l => .returned (since + l.nanos) (.error (.idle l))

end MetricIntake.Connection
