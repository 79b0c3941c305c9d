-- SUMMARY: A manager at work: connections dispatched, handled and counted, points that reach the sink, loops that exit, and a drain meanwhile.
import MetricIntake.Service.Drain
import MetricIntake.Point

/-!
# A manager at work

Between the operations of a manager, and while it drains, its loops and the
handlers of its connections go on by themselves. A connection is counted from
the moment its loop dispatches it, before its handler has run for the first
time, until the handler returns, however it ends. Only handlers that run and
loops that receive datagrams send points to the sink.

What happens is given as a list. An entry that cannot happen, such as a dispatch
by a loop that has exited, changes nothing.
-/

namespace MetricIntake

/-- Where the handler of a connection stands. -/
inductive HandlerState where
  /-- Dispatched, and never run. -/
  | dispatched
  | running
  | returned
  deriving DecidableEq, Repr

/-- The handler of a connection. -/
structure Handler where
  protocol : Protocol
  /-- Which loop of the service dispatched the connection. -/
  loop : Nat
  state : HandlerState := .dispatched
  deriving DecidableEq, Repr

/-- Whether a handler has still to be waited for. -/
def Handler.isPending (h : Handler) : Bool := h.state != .returned

/-- A manager, what the kernel keeps for it, and what it has dispatched and
    delivered. -/
structure Activity where
  manager : Manager
  kernel : Kernel := {}
  /-- All handlers, oldest first. -/
  handlers : List Handler := []
  /-- The points that have reached the sink, oldest first. -/
  delivered : List Point := []

/-- Something that loops and handlers do by themselves. -/
inductive Happening where
  | loopExited (protocol : Protocol) (loop : Nat)
  | dispatched (protocol : Protocol) (loop : Nat)
  /-- A handler runs for the first time. -/
  | started (handler : Nat)
  | ingested (handler : Nat) (points : List Point)
  | returned (handler : Nat)
  /-- A loop of the datagram service receives points. -/
  | received (loop : Nat) (points : List Point)

namespace Activity

/-! ## Loops and handlers -/

/-- The number of connections that are counted. -/
def active (a : Activity) : Nat := a.manager.activeConnections

/-- Whether a loop exists and goes on. -/
def isServing (a : Activity) (protocol : Protocol) (loop : Nat) : Bool :=
  ((a.manager.services protocol).loops[loop]?).any (!·.exited)

/-- Whether the connections of a protocol have handlers that are counted. -/
def hasHandlers : Protocol → Bool
  | .graphiteText | .graphitePickle => true
  | .graphiteUdp | .http => false

/-- The state of a handler. -/
def handlerState? (a : Activity) (i : Nat) : Option HandlerState :=
  (a.handlers[i]?).map (·.state)

/-- Replaces the state of a handler. -/
def setHandler (a : Activity) (i : Nat) (state : HandlerState) : Activity :=
  { a with handlers := a.handlers.modify i fun h => { h with state } }

/-- Replaces the tracker of the manager. -/
def setTracker (a : Activity) (t : DrainTracker) : Activity :=
  { a with manager := { a.manager with tracker := t } }

/-- Points reach the sink. -/
def deliver (a : Activity) (points : List Point) : Activity :=
  { a with delivered := a.delivered ++ points }

/-- A loop exits. -/
def exitLoop (a : Activity) (protocol : Protocol) (loop : Nat) : Activity :=
  let (manager, kernel) := a.manager.exitLoop protocol loop a.kernel
  { a with manager, kernel }

/-- A loop dispatches a connection. -/
def dispatch (a : Activity) (protocol : Protocol) (loop : Nat) : Activity :=
  let a := a.setTracker a.manager.tracker.acquire
  { a with handlers := a.handlers ++ [{ protocol, loop }] }

/-- What becomes of a manager at work when something happens. -/
def happen (a : Activity) : Happening → Activity
  | .loopExited protocol loop => a.exitLoop protocol loop
  | .dispatched protocol loop =>
    if hasHandlers protocol && a.isServing protocol loop then a.dispatch protocol loop else a
  | .started i => if a.handlerState? i = some .dispatched then a.setHandler i .running else a
  | .ingested i points => if a.handlerState? i = some .running then a.deliver points else a
  | .returned i =>
    if a.handlerState? i = some .running then
      (a.setHandler i .returned).setTracker a.manager.tracker.release
    else a
  | .received loop points => if a.isServing .graphiteUdp loop then a.deliver points else a

/-! ## Operations -/

/-- An operation on the manager alone. -/
def operate {α : Type} (a : Activity) (f : Manager → Kernel → α × Manager × Kernel) :
    α × Activity :=
  let (answer, manager, kernel) := f a.manager a.kernel
  (answer, { a with manager, kernel })

/-- Starts all services, or those that a manifest names. -/
def run (a : Activity) (manifest : Manifest) (base : Descriptor) :
    Except ServiceError Unit × Activity :=
  a.operate fun m k => m.run manifest base k

/-- Starts services on a handoff. -/
def resume (a : Activity) (h : Handoff) : Except ServiceError Unit × Activity :=
  a.operate fun m k => m.resume h k

/-- Exports the sockets. -/
def exportSockets (a : Activity) : Handoff × Activity :=
  a.operate fun m k =>
    let (h, k) := m.exportSockets k
    (h, m, k)

/-- Stops every service. -/
def shutdown (a : Activity) : Activity :=
  (a.operate fun m k => ((), m.shutdown k)).2

/-! ## Draining meanwhile -/

/-- Something that happens, and its moment. -/
abbrev Timed := Nat × Happening

/-- When a loop exits, among what happens. -/
def exitMoment? (meanwhile : List Timed) (protocol : Protocol) (loop : Nat) : Option Nat :=
  meanwhile.findSome? fun (moment, h) =>
    match h with
    | .loopExited q i => if q = protocol ∧ i = loop then some moment else none
    | _ => none

/-- When the loops end that the manager waits for, in the order of waiting. -/
def loopEnds (a : Activity) (now : Nat) (meanwhile : List Timed) : List (Option Nat) :=
  Protocol.all.flatMap fun protocol =>
    (a.manager.services protocol).loops.zipIdx.filterMap fun (l, i) =>
      if !l.tracked then none
      else if l.exited then some (some now)
      else some (exitMoment? meanwhile protocol i)

/-- When connections open and end, among what happens. -/
def connectionChanges : (meanwhile : List Timed) → Activity → Drain.Schedule
  | [], _ => []
  | (moment, h) :: rest, a =>
    let a' := a.happen h
    let later := connectionChanges rest a'
    if a.active < a'.active then ⟨moment, .opened⟩ :: later
    else if a'.active < a.active then ⟨moment, .closed⟩ :: later
    else later

/-- All that happens up to a moment. -/
def happenUpTo (a : Activity) (moment : Nat) (meanwhile : List Timed) : Activity :=
  (meanwhile.takeWhile (·.1 ≤ moment)).foldl (fun a h => a.happen h.2) a

/-- Waits for loops and connections while things happen, in the order of their
    moments. -/
def drain (a : Activity) (now : Nat) (timeout : Span) (meanwhile : List Timed) :
    Waited × Activity :=
  let waited := Drain.awaitAll now timeout (a.loopEnds now meanwhile) a.manager.tracker
    (connectionChanges meanwhile a)
  match waited with
  | .noDeadline => (waited, a)
  | .returned _ moment =>
    let a := a.happenUpTo moment meanwhile
    (waited, { a with manager := a.manager.untrack })

end Activity
end MetricIntake
