-- SUMMARY: A graceful restart step by step: two processes that pass their sockets on, and every order in which their steps may come.
import MetricIntake.Successor
import MetricIntake.Service.Manager

/-!
# Graceful restarts

A predecessor exports its sockets, stops its services and starts a successor;
then it closes what it had made for the successor. The successor moves the
inherited sockets into place, replaces its program, and starts its services on
them. If it cannot be started, the predecessor resumes on the sockets that it had
exported. Meanwhile the loops that were stopped exit one by one.

Each process takes its steps in order, but the steps of the two, and the exits of
loops, come in any order. A step whose turn has not come changes nothing.
-/

namespace MetricIntake

/-! ## Phases -/

/-- How far the predecessor has come. -/
inductive PredecessorPhase where
  | serving
  | exported (handoff : Handoff)
  /-- Its services have been stopped. -/
  | stopped (handoff : Handoff)
  /-- Sockets are duplicated above the inherited range, one by one. -/
  | duplicating (handoff : Handoff) (waiting copies : List Descriptor)
  /-- The successor process exists. -/
  | spawning (handoff : Handoff) (copies : List Descriptor)
  /-- The successor runs; the duplicates are closed one by one. -/
  | spawned (handoff : Handoff) (copies : List Descriptor)
  /-- Then the sockets of the handoff are. -/
  | discarding (waiting : List Descriptor)
  | replaced
  /-- There is no successor; the duplicates are closed one by one. -/
  | withdrawing (handoff : Handoff) (copies : List Descriptor)
  /-- Then services are resumed one by one. -/
  | resuming (waiting : List (String × Descriptor))
  | resumed
  deriving DecidableEq, Repr

/-- How far the successor has come. -/
inductive SuccessorPhase where
  /-- Duplicates are moved into place, one by one. -/
  | moving (waiting : List Descriptor) (target : Descriptor)
  /-- Its program has started. -/
  | started
  /-- Services are started on the inherited sockets, one by one. -/
  | starting (waiting : List (String × Descriptor))
  | running
  | failed
  deriving DecidableEq, Repr

/-- The successor process. -/
structure SuccessorProcess where
  kernel : Kernel
  manager : Manager
  /-- The value of the variable that carries the manifest. -/
  inherited : String
  phase : SuccessorPhase

/-- Both processes. -/
structure Restart where
  manager : Manager
  kernel : Kernel
  phase : PredecessorPhase := .serving
  successor : Option SuccessorProcess := none

namespace Restart

/-- Whether one of the processes has a descriptor for a file. -/
def holds (r : Restart) (file : Nat) : Bool :=
  let has := fun (k : Kernel) => k.table.slots.any fun s => s.2.file.id == file
  has r.kernel || r.successor.any fun s => has s.kernel

/-! ## Steps of the predecessor -/

/-- Exports the sockets. -/
def exportSockets (r : Restart) : Restart :=
  match r.phase with
  | .serving =>
    let (h, kernel) := r.manager.exportSockets r.kernel
    { r with kernel, phase := .exported h }
  | _ => r

/-- Stops the services: for the successor, or for good. -/
def stop (r : Restart) : Restart :=
  let (manager, kernel) := r.manager.shutdown r.kernel
  match r.phase with
  | .exported h => { r with manager, kernel, phase := .stopped h }
  | .resumed => { r with manager, kernel }
  | _ => r

/-- A loop of the predecessor exits. -/
def exitLoop (r : Restart) (protocol : Protocol) (loop : Nat) : Restart :=
  let (manager, kernel) := r.manager.exitLoop protocol loop r.kernel
  { r with manager, kernel }

/-- Goes on with the start of the successor: the next duplicate, or after the last
    one the process itself, which begins as a copy with the duplicates to move. -/
def prepare (successor : Manager) (r : Restart) : Restart :=
  match r.phase with
  | .stopped h => { r with phase := .duplicating h h.descriptors [] }
  | .duplicating h (fd :: waiting) copies =>
    match r.kernel.table.duplicate? fd (Successor.highBase h.entries.length) with
    | some (copy, table) =>
      { r with
        kernel := { r.kernel with table }
        phase := .duplicating h waiting (copies ++ [copy]) }
    | none => r
  | .duplicating h [] copies =>
    { r with
      phase := .spawning h copies
      successor := some {
        kernel := r.kernel
        manager := successor
        inherited := h.manifest.text
        phase := .moving copies Successor.firstInherited } }
  | _ => r

/-- Whether the program of the successor has started. -/
def hasStarted (r : Restart) : Bool :=
  r.successor.any fun s => !(s.phase matches .moving _ _)

/-- The start of the successor has come to its end: the next descriptor is closed that
    is not needed any more. -/
def cleanUp (r : Restart) : Restart :=
  match r.phase with
  | .spawning h copies => if r.hasStarted then { r with phase := .spawned h copies } else r
  | .spawned h (copy :: copies) =>
    { r with kernel := r.kernel.close copy, phase := .spawned h copies }
  | .spawned h [] => { r with phase := .discarding h.descriptors }
  | .discarding (fd :: waiting) =>
    { r with kernel := r.kernel.close fd, phase := .discarding waiting }
  | .discarding [] => { r with phase := .replaced }
  | .withdrawing h (copy :: copies) =>
    { r with kernel := r.kernel.close copy, phase := .withdrawing h copies }
  | .withdrawing h [] => { r with phase := .resuming h.entries }
  | _ => r

/-- The successor cannot be started. -/
def giveUp (r : Restart) : Restart :=
  match r.phase with
  | .stopped h => { r with phase := .resuming h.entries }
  | .duplicating h _ copies => { r with phase := .withdrawing h copies }
  | .spawning h copies =>
    if r.hasStarted then r
    else { r with phase := .withdrawing h copies, successor := none }
  | _ => r

/-- Resumes the next service. A failure closes the sockets that are left. -/
def resume (r : Restart) : Restart :=
  match r.phase with
  | .resuming [] => { r with phase := .resumed }
  | .resuming (entry :: waiting) =>
    match r.manager.startEntry entry r.kernel with
    | (.ok _, manager, kernel) => { r with manager, kernel, phase := .resuming waiting }
    | (.error _, manager, kernel) =>
      { r with manager, kernel := kernel.closeAll (waiting.map (·.2)), phase := .resumed }
  | _ => r

end Restart

/-! ## Steps of the successor -/

namespace SuccessorProcess

/-- Moves the next duplicate into place, or after the last one replaces the
    program. -/
def move (s : SuccessorProcess) : SuccessorProcess :=
  match s.phase with
  | .moving (fd :: waiting) target =>
    match s.kernel.table.moveTo? fd target with
    | some table =>
      { s with kernel := { s.kernel with table }, phase := .moving waiting (target + 1) }
    | none => s
  | .moving [] _ =>
    { s with kernel := { s.kernel with table := s.kernel.table.exec }, phase := .started }
  | _ => s

/-- Takes the inherited sockets. -/
def adopt (s : SuccessorProcess) : SuccessorProcess :=
  match s.phase with
  | .started =>
    match (Manifest.parse s.inherited).adopt Successor.firstInherited s.kernel with
    | (.ok h, kernel) => { s with kernel, phase := .starting h.entries }
    | (.error _, kernel) => { s with kernel, phase := .failed }
  | _ => s

/-- Starts the next service. A failure closes the sockets that are left. -/
def start (s : SuccessorProcess) : SuccessorProcess :=
  match s.phase with
  | .starting [] => { s with phase := .running }
  | .starting (entry :: waiting) =>
    match s.manager.startEntry entry s.kernel with
    | (.ok _, manager, kernel) => { s with manager, kernel, phase := .starting waiting }
    | (.error _, manager, kernel) =>
      { s with manager, kernel := kernel.closeAll (waiting.map (·.2)), phase := .failed }
  | _ => s

/-- Stops the services. -/
def stop (s : SuccessorProcess) : SuccessorProcess :=
  match s.phase with
  | .running =>
    let (manager, kernel) := s.manager.shutdown s.kernel
    { s with manager, kernel }
  | _ => s

/-- A loop exits. -/
def exitLoop (s : SuccessorProcess) (protocol : Protocol) (loop : Nat) : SuccessorProcess :=
  let (manager, kernel) := s.manager.exitLoop protocol loop s.kernel
  { s with manager, kernel }

end SuccessorProcess

/-! ## All steps -/

/-- A step of a restart. -/
inductive RestartStep where
  | exportSockets
  | stop
  | exitLoop (protocol : Protocol) (loop : Nat)
  | prepare
  | cleanUp
  | giveUp
  | resume
  | successorMoves
  | successorAdopts
  | successorStarts
  | successorStops
  | successorExitsLoop (protocol : Protocol) (loop : Nat)
  deriving DecidableEq, Repr

namespace Restart

/-- Changes the successor, if there is one. -/
def onSuccessor (r : Restart) (f : SuccessorProcess → SuccessorProcess) : Restart :=
  { r with successor := r.successor.map f }

/-- Takes a step. The successor's manager is `successor` when it starts. -/
def step (successor : Manager) (r : Restart) : RestartStep → Restart
  | .exportSockets => r.exportSockets
  | .stop => r.stop
  | .exitLoop protocol loop => r.exitLoop protocol loop
  | .prepare => r.prepare successor
  | .cleanUp => r.cleanUp
  | .giveUp => r.giveUp
  | .resume => r.resume
  | .successorMoves => r.onSuccessor .move
  | .successorAdopts => r.onSuccessor .adopt
  | .successorStarts => r.onSuccessor .start
  | .successorStops => r.onSuccessor .stop
  | .successorExitsLoop protocol loop => r.onSuccessor (·.exitLoop protocol loop)

/-- Takes steps in order. -/
def steps (successor : Manager) (r : Restart) (ss : List RestartStep) : Restart :=
  ss.foldl (step successor) r

end Restart
end MetricIntake
