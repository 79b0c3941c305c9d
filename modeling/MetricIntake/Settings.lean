-- SUMMARY: The limits that every connection is served under.
import MetricIntake.Backoff

/-!
# Settings

How long a connection may be idle, how much of it is kept in memory, and how
loops back off.
-/

namespace MetricIntake

/-- Limits of connections and loops. -/
structure Settings where
  /-- How long a peer may keep a connection waiting; no limit if absent. -/
  idle : Option Span := some (.ofSeconds 10)
  backoff : BackoffConfig := {}
  /-- The longest line, in bytes. -/
  maxLine : Nat := 64 * 1024
  /-- The largest pickle, in bytes. -/
  maxPickle : Nat := 64 * 1024 * 1024
  deriving DecidableEq, Repr

/-- Sets the idle limit in seconds; zero means none. -/
def Settings.withIdleSeconds (s : Settings) (n : Nat) : Settings :=
  { s with idle := if n = 0 then none else some (.ofSeconds n) }

end MetricIntake
