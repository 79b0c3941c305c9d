-- SUMMARY: What the kernel keeps for a process: its descriptors, the files behind them, and which addresses are taken.
import MetricIntake.Descriptor.Table
import MetricIntake.Listen
import MetricIntake.IoError

/-!
# The kernel's side

The kernel keeps a descriptor table for a process. The files behind it are
listening and datagram sockets, sockets of other families and of other types,
and files that are no sockets. Binding picks a free port if none is asked for;
no port is picked twice.
-/

namespace MetricIntake

/-- What kind of file a descriptor refers to. -/
inductive FileKind where
  | listener (address : Address)
  | datagram (address : Address)
  /-- A stream socket that has no network address. -/
  | localStream
  /-- A datagram socket that has no network address. -/
  | localDatagram
  /-- A socket that carries neither a stream nor datagrams, such as a raw one or
      one of sequenced packets. -/
  | otherSocket
  | plain
  deriving DecidableEq, Repr

namespace FileKind

/-- Whether the file is a socket. -/
def isSocket : FileKind → Bool
  | .plain => false
  | _ => true

/-- The transport that the type of a socket stands for. -/
def transport? : FileKind → Option Transport
  | .listener _ | .localStream => some .tcp
  | .datagram _ | .localDatagram => some .udp
  | .otherSocket | .plain => none

/-- The network address of a socket that carries a transport. -/
def address? : FileKind → Option Address
  | .listener a | .datagram a => some a
  | .localStream | .localDatagram | .otherSocket | .plain => none

/-- The kind of a bound socket. -/
def bound : Transport → Address → FileKind
  | .tcp, a => .listener a
  | .udp, a => .datagram a

/-- Whether a bound socket keeps another one from an address. -/
def occupies (k : FileKind) (transport : Transport) (address : Address) : Bool :=
  k.transport? == some transport &&
    match k.address? with
    | some a => a.port == address.port && (a.ip == address.ip || a.ip == .any || address.ip == .any)
    | none => false

end FileKind

/-- An open file: its identity and its kind. -/
structure OpenFile where
  id : Nat
  kind : FileKind
  deriving DecidableEq, Repr

/-- The descriptors of a process, and what the kernel needs to open more. -/
structure Kernel where
  table : DescriptorTable OpenFile := {}
  /-- The identity of the next file. -/
  nextFile : Nat := 0
  /-- The next port to pick. -/
  nextPort : Nat := 32768
  /-- Sockets of other processes. -/
  elsewhere : List FileKind := []
  deriving Repr

namespace Kernel

/-- The descriptors below this one are taken by standard input and output. -/
def firstDescriptor : Nat := 3

/-- Opens a new file. -/
def openFile (k : Kernel) (kind : FileKind) : Descriptor × Kernel :=
  let (fd, table) := k.table.openAt firstDescriptor ⟨⟨k.nextFile, kind⟩, true⟩
  (fd, { k with table, nextFile := k.nextFile + 1 })

/-- Opens a new file at a given descriptor. -/
def openFileAt (k : Kernel) (fd : Descriptor) (kind : FileKind) : Kernel :=
  { k with table := k.table.place fd ⟨⟨k.nextFile, kind⟩, true⟩, nextFile := k.nextFile + 1 }

def close (k : Kernel) (fd : Descriptor) : Kernel :=
  { k with table := k.table.close fd }

def closeAll (k : Kernel) (fds : List Descriptor) : Kernel :=
  { k with table := k.table.closeAll fds }

/-- The kind of the file that a descriptor refers to. -/
def kind? (k : Kernel) (fd : Descriptor) : Option FileKind :=
  (k.table.file? fd).map OpenFile.kind

/-- Whether a descriptor is an open socket. -/
def isSocket (k : Kernel) (fd : Descriptor) : Bool :=
  (k.kind? fd).any FileKind.isSocket

/-- Whether a socket, here or elsewhere, keeps a new one from an address. -/
def isTaken (k : Kernel) (transport : Transport) (address : Address) : Bool :=
  k.table.slots.any (fun s => s.2.file.kind.occupies transport address)
    || k.elsewhere.any (·.occupies transport address)

/-- The first port that was not picked before and that nobody keeps. -/
def freePort? (k : Kernel) (transport : Transport) (ip : Ip) : Option Nat :=
  (List.range' k.nextPort (UInt16.size - k.nextPort)).find? fun port =>
    !k.isTaken transport ⟨ip, UInt16.ofNat port⟩

/-- Binds a new socket. Port zero asks for a free one; any address will do. -/
def bind (k : Kernel) (transport : Transport) (address : Address) :
    Except IoKind (Descriptor × Address × Kernel) :=
  if address.port = 0 then
    match k.freePort? transport address.ip with
    | none => .error .addrInUse
    | some port =>
      let address := { address with port := UInt16.ofNat port }
      let (fd, k) := k.openFile (.bound transport address)
      .ok (fd, address, { k with nextPort := port + 1 })
  else if k.isTaken transport address then .error .addrInUse
  else
    let (fd, k) := k.openFile (.bound transport address)
    .ok (fd, address, k)

/-- A second descriptor for the file of an open one. -/
def duplicate? (k : Kernel) (fd : Descriptor) : Option (Descriptor × Kernel) :=
  (k.table.duplicate? fd firstDescriptor).map fun (fd, table) => (fd, { k with table })

end Kernel
end MetricIntake
