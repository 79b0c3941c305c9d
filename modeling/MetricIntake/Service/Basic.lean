-- SUMMARY: One protocol's service: its socket, the loops that serve it, and how it is started, stopped and resumed.
import MetricIntake.Socket.Listening

/-!
# Services

A service ties a protocol to a listening socket. Starting it binds or adopts the
socket and spawns a loop that serves it; stopping it requests the loop to stop
and lets go of the socket. The loop exits at some later moment and only then
drops its handle. A service that is started again after a stop gets a new socket
and a new loop, whether or not the old loop has exited.

Sockets of one service are told apart by their generation. A loop knows the
generation of the socket it serves, and the stop request of that generation is
what it listens to. All loops that were ever spawned are kept, oldest first.
-/

namespace MetricIntake

/-- A loop that serves a socket. -/
structure ServingLoop where
  /-- The generation of the socket that it serves. -/
  generation : Nat
  /-- The handle that it holds until it exits. -/
  socket : BoundSocket
  /-- Whether it has been asked to stop. -/
  stopRequested : Bool := false
  exited : Bool := false
  /-- Whether its end is still to be waited for. -/
  tracked : Bool := true
  deriving DecidableEq, Repr

/-- A protocol and what serves it. -/
structure Service where
  protocol : Protocol
  /-- Where to listen; an empty spec disables the service. -/
  spec : String
  socket : ListeningSocket := {}
  /-- The generation of `socket`. -/
  generation : Nat := 0
  loops : List ServingLoop := []
  deriving Repr

/-- Why services could not be started. -/
inductive ServiceError where
  | start (protocol : Protocol) (source : SocketError)
  /-- The inherited descriptors could not be taken. -/
  | handoff (source : SocketError)
  deriving DecidableEq, Repr

def ServiceError.message : ServiceError → String
  | .start protocol source =>
    "Error starting " ++ protocol.key ++ " service: " ++ source.message
  | .handoff source => "Socket handoff error: " ++ source.message

/-- The error of the socket behind it. -/
def ServiceError.source : ServiceError → SocketError
  | .start _ source => source
  | .handoff source => source

namespace Service

def state (s : Service) : SocketState := s.socket.state

/-- The address of the socket, if it was ever bound. -/
def address? (s : Service) : Option Address := s.socket.address?

/-- A service whose socket has been stopped gets a new one. -/
def renew (s : Service) : Service :=
  match s.state with
  | .draining | .closed => { s with socket := {}, generation := s.generation + 1 }
  | .unbound | .bound => s

/-- Binds a fresh socket, or adopts a descriptor. -/
def acquire (s : Service) (inherited : Option Descriptor) (k : Kernel) :
    Except SocketError Address × Service × Kernel :=
  let (result, socket, k) :=
    match inherited with
    | some fd => s.socket.adopt s.protocol.transport fd k
    | none => s.socket.bind s.protocol.transport s.spec k
  (result, { s with socket }, k)

/-- Spawns a loop on the socket. Loops that have exited need not be waited for
    any more. -/
def spawnLoop (s : Service) : Except SocketError Unit × Service :=
  match s.socket.takeHandle with
  | (none, _) => (.error (.invalidState .serve s.state), s)
  | (some handle, socket) =>
    let loops := s.loops.map fun l => { l with tracked := l.tracked && !l.exited }
    (.ok (), { s with
      socket
      loops := loops ++ [{ generation := s.generation, socket := handle }] })

/-- Starts a service. A disabled one stays as it is and closes what it inherits. -/
def start (s : Service) (inherited : Option Descriptor) (k : Kernel) :
    Except ServiceError Unit × Service × Kernel :=
  if s.spec.isEmpty then (.ok (), s, k.closeAll inherited.toList)
  else
    match s.renew.acquire inherited k with
    | (.error e, s, k) => (.error (.start s.protocol e), s, k)
    | (.ok _, s, k) =>
      let (result, s) := s.spawnLoop
      (result.mapError (.start s.protocol), s, k)

/-- Stops a service. -/
def stop (s : Service) (k : Kernel) : Service × Kernel :=
  let (socket, k) := s.socket.stop k
  let loops := s.loops.map fun l =>
    if l.generation = s.generation then
      { l with stopRequested := l.stopRequested || socket.stopRequested }
    else l
  ({ s with socket, loops }, k)

/-- The `i`-th loop exits and drops its handle. A loop of an earlier generation
    held the only one. -/
def exitLoop (s : Service) (i : Nat) (k : Kernel) : Service × Kernel :=
  match s.loops[i]? with
  | none => (s, k)
  | some l =>
    if l.exited then (s, k)
    else
      let s := { s with loops := s.loops.set i { l with exited := true } }
      if l.generation = s.generation then
        let (socket, k) := s.socket.dropHandle k
        ({ s with socket }, k)
      else (s, k.close l.socket.fd)

/-- All loops that have been asked to stop exit. -/
def settle (s : Service) (k : Kernel) : Service × Kernel :=
  (List.range s.loops.length).foldl
    (fun (s, k) i =>
      match s.loops[i]? with
      | some l => if l.stopRequested then s.exitLoop i k else (s, k)
      | none => (s, k))
    (s, k)

/-- The loops whose end is still to be waited for. -/
def tracked (s : Service) : List ServingLoop := s.loops.filter (·.tracked)

/-- Stops keeping track of the loops. -/
def takeTracked (s : Service) : List ServingLoop × Service :=
  (s.tracked, { s with loops := s.loops.map fun l => { l with tracked := false } })

/-- A second descriptor for the socket, if it is bound. -/
def duplicate? (s : Service) (k : Kernel) : Option (Descriptor × Kernel) :=
  s.socket.duplicate? k

end Service
end MetricIntake
