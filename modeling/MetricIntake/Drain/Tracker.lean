-- SUMMARY: The count of open connections and the calls that wait for it to reach zero, step by step.

/-!
# Waiting for connections to end

A tracker counts connections by guards. A call that waits first looks at the
count. If it is not zero the call takes a ticket, looks again, and only then
waits for a notification; every call that holds a ticket is notified when the
last guard is dropped. A ticket that was taken before the drop is notified even
if the call does not wait yet, so no notification is lost between looking and
waiting.

Each step of a call is an operation of its own. Between two steps anything may
happen to the count.
-/

namespace MetricIntake

/-- Where a waiting call stands. -/
inductive DrainCall where
  /-- It has seen open connections and holds no ticket yet. -/
  | entered
  /-- It holds a ticket and has not looked at the count since. -/
  | armed (notified : Bool)
  /-- It holds a ticket and has seen open connections since. -/
  | waiting (notified : Bool)
  | returned (drained : Bool)
  deriving DecidableEq, Repr

/-- The count of open connections, and every call so far, oldest first. -/
structure DrainTracker where
  active : Nat := 0
  calls : List DrainCall := []
  deriving DecidableEq, Repr

namespace DrainCall

/-- What a notification does to a call. -/
def notify : DrainCall → DrainCall
  | .armed _ => .armed true
  | .waiting _ => .waiting true
  | c => c

/-- The next step of a call under a count of open connections. A call that waits
    for its notification stays as it is. -/
def step (active : Nat) : DrainCall → DrainCall
  | .entered => .armed false
  | .armed notified => if active = 0 then .returned true else .waiting notified
  | .waiting true => .armed false
  | c => c

/-- What becomes of a call whose time is up. -/
def expire : DrainCall → DrainCall
  | .returned drained => .returned drained
  | _ => .returned false

end DrainCall

namespace DrainTracker

/-- A connection opens. -/
def acquire (t : DrainTracker) : DrainTracker := { t with active := t.active + 1 }

/-- A connection ends; the last one notifies the calls. -/
def release (t : DrainTracker) : DrainTracker where
  active := t.active - 1
  calls := if t.active = 1 then t.calls.map DrainCall.notify else t.calls

@[simp] theorem active_acquire (t : DrainTracker) : t.acquire.active = t.active + 1 := rfl

@[simp] theorem active_release (t : DrainTracker) : t.release.active = t.active - 1 := rfl

/-- A call enters. It returns at once if no connection is open. -/
def enter (t : DrainTracker) : DrainTracker :=
  { t with calls := t.calls ++ [if t.active = 0 then .returned true else .entered] }

/-- One step of the `i`-th call. -/
def step (t : DrainTracker) (i : Nat) : DrainTracker :=
  { t with calls := t.calls.modify i (DrainCall.step t.active) }

@[simp] theorem active_enter (t : DrainTracker) : t.enter.active = t.active := rfl

@[simp] theorem active_step (t : DrainTracker) (i : Nat) : (t.step i).active = t.active := rfl

/-- The time of the `i`-th call is up. -/
def expire (t : DrainTracker) (i : Nat) : DrainTracker :=
  { t with calls := t.calls.modify i DrainCall.expire }

/-- Runs the `i`-th call until it waits or returns. Three steps are enough: a
    notified call takes a new ticket and looks. -/
def poll (t : DrainTracker) (i : Nat) : DrainTracker :=
  ((t.step i).step i).step i

end DrainTracker
end MetricIntake
