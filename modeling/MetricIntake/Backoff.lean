-- SUMMARY: Capped exponential backoff: how long to wait after each failure in a row.
import MetricIntake.Span

/-!
# Backoff

After a failure a loop waits before it tries again, each time longer than
before, up to a largest delay. A success starts over.
-/

namespace MetricIntake

/-- The parameters of a backoff. -/
structure BackoffConfig where
  /-- The delay after the first failure. -/
  initial : Span := .ofMillis 5
  /-- The largest delay. -/
  max : Span := .ofSeconds 1
  /-- The growth from one delay to the next. -/
  multiplier : UInt32 := 2
  deriving DecidableEq, Repr

/-- The delay that was handed out last, if a failure is being backed off. -/
structure Backoff where
  config : BackoffConfig
  current : Option Span := none
  deriving DecidableEq, Repr

namespace Backoff

/-- The delay after one more failure. -/
def nextDelay (b : Backoff) : Span :=
  match b.current with
  | none => b.config.initial.min b.config.max
  | some delay => (delay.scale b.config.multiplier).min b.config.max

/-- The backoff after one more failure. -/
def fail (b : Backoff) : Backoff := { b with current := some b.nextDelay }

/-- The backoff after a success. -/
def reset (b : Backoff) : Backoff := { b with current := none }

end Backoff
end MetricIntake
