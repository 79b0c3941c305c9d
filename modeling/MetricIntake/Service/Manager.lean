-- SUMMARY: All services of a process: cold start, start on inherited sockets, export for a successor, shutdown.
import MetricIntake.Http
import MetricIntake.Service.Basic
import MetricIntake.Settings
import MetricIntake.Manifest
import MetricIntake.Drain.Tracker

/-!
# The manager

The manager has one service per protocol. It starts them all on fresh sockets,
or those that a manifest names on inherited ones; it exports the bound sockets
for a successor; and it stops them all. Whatever it does to several services it
does in the order of the protocols, and a start that fails ends it.
-/

namespace MetricIntake

/-- The services of a process. -/
structure Manager where
  services : Protocol → Service
  listen : ListenConfig
  settings : Settings := {}
  /-- The count of the connections that are being handled. -/
  tracker : DrainTracker := {}

/-- What is reported about a service. -/
structure ServiceStatus where
  protocol : Protocol
  spec : String
  state : SocketState
  address? : Option Address
  deriving DecidableEq, Repr

namespace Manager

/-- A manager whose services have not been started. -/
def create (listen : ListenConfig) (settings : Settings := {}) : Manager where
  services p := { protocol := p, spec := listen.spec p }
  listen
  settings

/-- Replaces the service of a protocol. -/
def update (m : Manager) (protocol : Protocol) (s : Service) : Manager :=
  { m with services := fun q => if q = protocol then s else m.services q }

@[simp] theorem services_update_self (m : Manager) (protocol : Protocol) (s : Service) :
    (m.update protocol s).services protocol = s := by
  simp [update]

theorem services_update_of_ne (m : Manager) {protocol other : Protocol} (s : Service)
    (h : other ≠ protocol) : (m.update protocol s).services other = m.services other := by
  simp [update, h]

/-- Starts one service. -/
def startService (m : Manager) (protocol : Protocol) (inherited : Option Descriptor)
    (k : Kernel) : Except ServiceError Unit × Manager × Kernel :=
  let (result, s, k) := (m.services protocol).start inherited k
  (result, m.update protocol s, k)

/-- Starts services on fresh sockets, up to the first that fails. -/
def startFresh : List Protocol → Manager → Kernel →
    Except ServiceError Unit × Manager × Kernel
  | [], m, k => (.ok (), m, k)
  | protocol :: rest, m, k =>
    match m.startService protocol none k with
    | (.error e, m, k) => (.error e, m, k)
    | (.ok _, m, k) => startFresh rest m k

/-- Starts the service of a key on a descriptor. A key that no protocol has is no
    failure; its descriptor is closed. -/
def startEntry (m : Manager) (entry : String × Descriptor) (k : Kernel) :
    Except ServiceError Unit × Manager × Kernel :=
  match Protocol.ofKey? entry.1 with
  | none => (.ok (), m, k.close entry.2)
  | some protocol => m.startService protocol (some entry.2) k

/-- Starts services on the descriptors of a handoff, up to the first that fails;
    the descriptors after it are closed. -/
def startInherited : List (String × Descriptor) → Manager → Kernel →
    Except ServiceError Unit × Manager × Kernel
  | [], m, k => (.ok (), m, k)
  | entry :: rest, m, k =>
    match m.startEntry entry k with
    | (.error e, m, k) => (.error e, m, k.closeAll (rest.map (·.2)))
    | (.ok _, m, k) => startInherited rest m k

/-- Resumes on a handoff, or starts on inherited sockets that have been taken. -/
def resume (m : Manager) (h : Handoff) (k : Kernel) :
    Except ServiceError Unit × Manager × Kernel :=
  startInherited h.entries m k

/-- Starts all services, or with a manifest those that it names. Their
    descriptors begin at `base`. -/
def run (m : Manager) (manifest : Manifest) (base : Descriptor) (k : Kernel) :
    Except ServiceError Unit × Manager × Kernel :=
  if manifest.isEmpty then startFresh Protocol.all m k
  else
    match manifest.adopt base k with
    | (.error e, k) => (.error (.handoff e), m, k)
    | (.ok h, k) => m.resume h k

/-- Duplicates the sockets of the bound services among some protocols. -/
def exportFrom (m : Manager) : List Protocol → Handoff → Kernel → Handoff × Kernel
  | [], h, k => (h, k)
  | protocol :: rest, h, k =>
    match (m.services protocol).duplicate? k with
    | none => exportFrom m rest h k
    | some (fd, k) => exportFrom m rest (h.push protocol.key fd) k

/-- Duplicates the socket of every bound service for a successor. -/
def exportSockets (m : Manager) (k : Kernel) : Handoff × Kernel :=
  m.exportFrom Protocol.all {} k

/-- Applies an operation to every service, in order. -/
def forEach (f : Service → Kernel → Service × Kernel) (m : Manager) (k : Kernel) :
    Manager × Kernel :=
  Protocol.all.foldl
    (fun (m, k) protocol =>
      let (s, k) := f (m.services protocol) k
      (m.update protocol s, k))
    (m, k)

/-- Stops every service. -/
def shutdown (m : Manager) (k : Kernel) : Manager × Kernel := forEach Service.stop m k

/-- All loops that have been asked to stop exit. -/
def settle (m : Manager) (k : Kernel) : Manager × Kernel := forEach Service.settle m k

/-- One loop of a service exits. -/
def exitLoop (m : Manager) (protocol : Protocol) (i : Nat) (k : Kernel) : Manager × Kernel :=
  let (s, k) := (m.services protocol).exitLoop i k
  (m.update protocol s, k)

/-- The loops whose end is still to be waited for, in the order of waiting. -/
def tracked (m : Manager) : List ServingLoop :=
  Protocol.all.flatMap fun protocol => (m.services protocol).tracked

/-- Stops keeping track of loops. -/
def untrack (m : Manager) : Manager :=
  { m with services := fun protocol => (m.services protocol).takeTracked.2 }

/-- Whether some service has been stopped while its loop goes on. -/
def isDraining (m : Manager) : Bool :=
  Protocol.all.any fun protocol => (m.services protocol).state == .draining

/-- The number of connections that are being handled. -/
def activeConnections (m : Manager) : Nat := m.tracker.active

/-- Answers an HTTP request. -/
def respond (m : Manager) (r : Http.Request) : Http.Response :=
  Http.respond ⟨m.listen, m.activeConnections⟩ r

/-- What is reported about every service, in order. -/
def status (m : Manager) : List ServiceStatus :=
  Protocol.all.map fun protocol =>
    let s := m.services protocol
    ⟨protocol, s.spec, s.state, s.address?⟩

end Manager
end MetricIntake
