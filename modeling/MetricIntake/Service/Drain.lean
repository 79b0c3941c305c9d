-- SUMMARY: Waiting for loops and connections to end under one deadline, and the range in which a deadline exists.
import MetricIntake.Service.Manager
import MetricIntake.Drain.Schedule
import MetricIntake.Span

/-!
# Draining a manager

After a shutdown the manager waits first for its loops, one after the other, and
then for the connections, all under one deadline. It reports whether everything
had ended by then. Loops that were waited for are not waited for again, even if
they had not ended.

The clock counts seconds in 63 bits. A timeout that leads beyond them has no
deadline, and the wait cannot be started.
-/

namespace MetricIntake

/-- The first moment that the clock does not have. -/
def clockLimit : Nat := UInt64.size / 2 * nanosPerSecond

/-- The moment a timeout after another, if the clock has it. -/
def deadline? (now : Nat) (timeout : Span) : Option Nat :=
  if now + timeout.nanos < clockLimit then some (now + timeout.nanos) else none

/-- How a wait ended. -/
inductive Waited where
  /-- The timeout is beyond the clock. -/
  | noDeadline
  | returned (clean : Bool) (moment : Nat)
  deriving DecidableEq, Repr

namespace Drain

/-- Waits for one loop, which ends at some moment or never. A loop that ends at
    the deadline is in time. -/
def awaitLoop (deadline now : Nat) (ends : Option Nat) : Bool × Nat :=
  match ends with
  | some moment => if moment ≤ deadline then (true, max now moment) else (false, max now deadline)
  | none => (false, max now deadline)

/-- Waits for loops one after the other. -/
def awaitLoops (deadline : Nat) (now : Nat) (ends : List (Option Nat)) : Bool × Nat :=
  ends.foldl
    (fun (clean, now) ends =>
      let (ended, now) := awaitLoop deadline now ends
      (clean && ended, now))
    (true, now)

/-- Waits for loops and then for connections, which open and end on a schedule. -/
def awaitAll (now : Nat) (timeout : Span) (ends : List (Option Nat)) (t : DrainTracker)
    (s : Schedule) : Waited :=
  match deadline? now timeout with
  | none => .noDeadline
  | some deadline =>
    let (clean, moment) := awaitLoops deadline now ends
    let (past, ahead) := s.upTo moment
    let result := drain (applyAll t past) moment (deadline - moment) ahead
    .returned (result.drained && clean) result.moment

end Drain

namespace Manager

/-- Whether draining has anything to wait for. -/
def hasPending (m : Manager) : Bool := !m.tracked.isEmpty || 0 < m.activeConnections

/-- Waits for loops and connections. Loops that have been asked to stop end as
    soon as anything waits, others do not end, and no connection changes. -/
def drain (m : Manager) (now : Nat) (timeout : Span) (k : Kernel) : Waited × Manager × Kernel :=
  let ends := m.tracked.map fun l => if l.stopRequested || l.exited then some now else none
  let (m', k) := if m.hasPending then m.settle k else (m, k)
  (Drain.awaitAll now timeout ends m.tracker [], m'.untrack, k)

end Manager
end MetricIntake
