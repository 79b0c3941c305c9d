-- SUMMARY: The accept loop of a listener: every connection dispatched once, waits after passing errors, an end by request or by a lasting error.
import MetricIntake.Backoff
import MetricIntake.IoError

/-!
# Accepting connections

A listener is described by what successive attempts to accept meet and how long
each takes; after the last one no attempt ever completes. The loop dispatches
every connection, backs off after an error that passes by itself, and ends at
the first error that does not, or when it is asked to stop. A request to stop
wins over whatever becomes ready at the same moment.
-/

namespace MetricIntake.Listener

variable {κ : Type}

/-- An attempt to accept: how many nanoseconds it takes, and what it meets. -/
structure Attempt (κ : Type) where
  wait : Nat
  result : Except IoError κ

/-- Why an accept loop ended. -/
inductive AcceptExit where
  | stopped
  | failed (error : IoError)
  deriving DecidableEq, Repr

/-- What an accept loop reports while it runs. -/
inductive AcceptEvent where
  | backingOff (delay : Span)
  | stopped
  | stoppedInBackoff
  deriving DecidableEq, Repr

namespace AcceptEvent

def message : AcceptEvent → String
  | .backingOff _ => "Transient accept error, backing off"
  | .stopped => "Accept loop stopped"
  | .stoppedInBackoff => "Accept loop stopped during backoff"

/-- Whether the event calls for attention. -/
def isWarning : AcceptEvent → Bool
  | .backingOff _ => true
  | .stopped | .stoppedInBackoff => false

/-- The delay that the event announces. -/
def delay? : AcceptEvent → Option Span
  | .backingOff d => some d
  | .stopped | .stoppedInBackoff => none

end AcceptEvent

/-- The whole run of an accept loop. -/
structure AcceptRun (κ : Type) where
  /-- Connections with the moments at which they were dispatched. -/
  dispatched : List (κ × Nat) := []
  events : List AcceptEvent := []
  /-- Why and when the loop ended, if it did. -/
  exit : Option (AcceptExit × Nat) := none

namespace AcceptRun

/-- A run that begins with a dispatch. -/
def dispatch (conn : κ) (moment : Nat) (r : AcceptRun κ) : AcceptRun κ :=
  { r with dispatched := (conn, moment) :: r.dispatched }

/-- A run that begins with an event. -/
def report (e : AcceptEvent) (r : AcceptRun κ) : AcceptRun κ :=
  { r with events := e :: r.events }

/-- A run that ends at once, by request. -/
def stopped (e : AcceptEvent) (moment : Nat) : AcceptRun κ :=
  { events := [e], exit := some (.stopped, moment) }

/-- A run that ends at once, by an error. -/
def failed (e : IoError) (moment : Nat) : AcceptRun κ :=
  { exit := some (.failed e, moment) }

end AcceptRun

/-- The moment of a request to stop, if it comes no later than `moment`. -/
def stopBy (stop : Option Nat) (moment : Nat) : Option Nat :=
  stop.filter (· ≤ moment)

/-- Runs the loop from a moment at which it has not been asked to stop. -/
def acceptFrom (stop : Option Nat) : List (Attempt κ) → (now : Nat) → Backoff → AcceptRun κ
  | [], now, _ =>
    match stop with
    | some s => .stopped .stopped (max now s)
    | none => {}
  | attempt :: attempts, now, backoff =>
    let moment := now + attempt.wait
    match stopBy stop moment with
    | some s => .stopped .stopped (max now s)
    | none =>
      match attempt.result with
      | .ok conn => (acceptFrom stop attempts moment backoff.reset).dispatch conn moment
      | .error e =>
        if e.isTransient then
          let delay := backoff.nextDelay
          let resumed := moment + delay.nanos
          .report (.backingOff delay) <|
            match stopBy stop resumed with
            | some s => .stopped .stoppedInBackoff s
            | none => acceptFrom stop attempts resumed backoff.fail
        else .failed e moment

/-- Runs an accept loop from the start. -/
def accept (config : BackoffConfig) (stop : Option Nat) (attempts : List (Attempt κ)) :
    AcceptRun κ :=
  acceptFrom stop attempts 0 { config }

end MetricIntake.Listener
