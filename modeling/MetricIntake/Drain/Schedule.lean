-- SUMMARY: A wait for connections to end against a schedule of openings and endings, with a limit.
import MetricIntake.Drain.Tracker

/-!
# Draining on a schedule

When connections open and end at known moments, a wait is a function: it returns
when the count is zero after everything that happens at one moment, or when its
time is up. What happens exactly when the time is up still counts.
-/

namespace MetricIntake.Drain

/-- What happens to a connection. -/
inductive Change where
  | opened | closed
  deriving DecidableEq, Repr

/-- A change and its moment. -/
structure Scheduled where
  moment : Nat
  change : Change
  deriving DecidableEq, Repr

/-- Changes in the order in which they happen. -/
abbrev Schedule := List Scheduled

/-- The tracker after a change. -/
def Change.apply (t : DrainTracker) : Change → DrainTracker
  | .opened => t.acquire
  | .closed => t.release

/-- The tracker after the changes of a schedule. -/
def applyAll (t : DrainTracker) (s : Schedule) : DrainTracker :=
  s.foldl (fun t c => c.change.apply t) t

/-- Puts a change behind those that happen no later. -/
def Schedule.insert (s : Schedule) (c : Scheduled) : Schedule :=
  s.takeWhile (·.moment ≤ c.moment) ++ c :: s.dropWhile (·.moment ≤ c.moment)

/-- A schedule in two: what happens up to a moment, and what happens later. -/
def Schedule.upTo (s : Schedule) (moment : Nat) : Schedule × Schedule :=
  (s.takeWhile (·.moment ≤ moment), s.dropWhile (·.moment ≤ moment))

/-- What happens later is no more than the schedule. -/
theorem Schedule.length_upTo_le (s : Schedule) (moment : Nat) :
    (s.upTo moment).2.length ≤ s.length :=
  (List.dropWhile_suffix _).length_le

/-- How a wait ended: its result, its moment, the tracker then and what is still
    to happen. -/
structure Drained where
  drained : Bool
  moment : Nat
  tracker : DrainTracker
  ahead : Schedule

/-- Goes on with the `i`-th call of a tracker, which waits, up to a deadline. -/
def continueCall (deadline i : Nat) (t : DrainTracker) (s : Schedule) : Drained :=
  match s with
  | [] => ⟨false, deadline, t.expire i, []⟩
  | c :: rest =>
    if deadline < c.moment then ⟨false, deadline, t.expire i, c :: rest⟩
    else
      let split := Schedule.upTo rest c.moment
      let t := (applyAll t (c :: split.1)).poll i
      if t.calls[i]? = some (.returned true) then ⟨true, c.moment, t, split.2⟩
      else continueCall deadline i t split.2
termination_by s.length
decreasing_by exact Nat.lt_succ_of_le (Schedule.length_upTo_le rest c.moment)

/-- Waits from a moment on, at most for a limit. -/
def drain (t : DrainTracker) (start limit : Nat) (s : Schedule) : Drained :=
  let i := t.calls.length
  let t := t.enter.poll i
  if t.calls[i]? = some (.returned true) then ⟨true, start, t, s⟩
  else continueCall (start + limit) i t s

end MetricIntake.Drain
