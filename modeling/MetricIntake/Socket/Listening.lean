-- SUMMARY: A listening socket through its life: unbound, bound, draining, closed; the handles that keep it open, and its stop request.
import MetricIntake.Descriptor.Kernel
import MetricIntake.Socket.Error

/-!
# Listening sockets

A listening socket is bound fresh or adopted from a descriptor that another
process has left. While it is bound, handles to it can be taken for those who
serve it, and its descriptor can be duplicated for a successor. Stopping it
requests everybody who serves it to stop, and lets go of the socket; it is
closed when the last handle is dropped. A stopped socket is never bound again.

A descriptor given to `adopt` belongs to the socket from then on: if it is not
adopted, it is closed.
-/

namespace MetricIntake

/-- A bound socket: its descriptor, what it carries, and its address. -/
structure BoundSocket where
  fd : Descriptor
  transport : Transport
  address : Address
  deriving DecidableEq, Repr

/-- Whether a socket has been bound, and whether it has been let go. -/
inductive Holding where
  | nothing
  | held (socket : BoundSocket)
  | released (socket : BoundSocket)
  deriving DecidableEq, Repr

/-- A listening socket. -/
structure ListeningSocket where
  holding : Holding := .nothing
  /-- Handles that have been taken and not dropped. -/
  handles : Nat := 0
  /-- Whether those who serve the socket have been asked to stop. -/
  stopRequested : Bool := false
  /-- The address it was bound to, kept when it is stopped. -/
  address? : Option Address := none
  deriving DecidableEq, Repr

namespace ListeningSocket

def state (s : ListeningSocket) : SocketState :=
  match s.holding with
  | .nothing => .unbound
  | .held _ => .bound
  | .released _ => if 0 < s.handles then .draining else .closed

/-! ## Binding and adopting -/

/-- The socket once it holds a bound one. -/
def hold (s : ListeningSocket) (socket : BoundSocket) : ListeningSocket :=
  { s with holding := .held socket, address? := some socket.address }

/-- Binds a fresh socket. -/
def bind (s : ListeningSocket) (transport : Transport) (spec : String) (k : Kernel) :
    Except SocketError Address × ListeningSocket × Kernel :=
  if s.state = .unbound then
    match resolveSpec spec with
    | .error fault => (.error (.resolve spec fault), s, k)
    | .ok address =>
      match k.bind transport address with
      | .error kind => (.error (.bind transport spec kind), s, k)
      | .ok (fd, address, k) => (.ok address, s.hold ⟨fd, transport, address⟩, k)
  else (.error (.invalidState .bind s.state), s, k)

/-- The socket behind a descriptor, if it is of the type that a transport has and
    has a network address. -/
def inspect (k : Kernel) (transport : Transport) (fd : Descriptor) :
    Except SocketError BoundSocket :=
  match k.kind? fd with
  | none => .error (.wrongType fd transport)
  | some kind =>
    if kind.transport? = some transport then
      match kind.address? with
      | some address => .ok ⟨fd, transport, address⟩
      | none => .error (.io .invalidInput)
    else .error (.wrongType fd transport)

/-- Adopts a descriptor. -/
def adopt (s : ListeningSocket) (transport : Transport) (fd : Descriptor) (k : Kernel) :
    Except SocketError Address × ListeningSocket × Kernel :=
  if s.state = .unbound then
    match inspect k transport fd with
    | .error e => (.error e, s, k.close fd)
    | .ok socket => (.ok socket.address, s.hold socket, k)
  else (.error (.invalidState .adopt s.state), s, k.close fd)

/-! ## Handles -/

/-- Takes a handle, if the socket is bound. -/
def takeHandle (s : ListeningSocket) : Option BoundSocket × ListeningSocket :=
  match s.holding with
  | .held socket => (some socket, { s with handles := s.handles + 1 })
  | _ => (none, s)

/-- Doubles a handle, if there is one. -/
def cloneHandle (s : ListeningSocket) : ListeningSocket :=
  if 0 < s.handles then { s with handles := s.handles + 1 } else s

/-- Drops a handle. The last one closes a socket that has been let go. -/
def dropHandle (s : ListeningSocket) (k : Kernel) : ListeningSocket × Kernel :=
  let s' := { s with handles := s.handles - 1 }
  match s.holding with
  | .released socket => (s', if s.handles = 1 then k.close socket.fd else k)
  | _ => (s', k)

/-! ## Stopping and handing over -/

/-- Requests a stop and lets go of the socket. Nothing happens unless it is
    bound. -/
def stop (s : ListeningSocket) (k : Kernel) : ListeningSocket × Kernel :=
  match s.holding with
  | .held socket =>
    ({ s with holding := .released socket, stopRequested := true },
      if s.handles = 0 then k.close socket.fd else k)
  | _ => (s, k)

/-- A second descriptor for the socket, if it is bound. -/
def duplicate? (s : ListeningSocket) (k : Kernel) : Option (Descriptor × Kernel) :=
  match s.holding with
  | .held socket => k.duplicate? socket.fd
  | _ => none

end ListeningSocket
end MetricIntake
