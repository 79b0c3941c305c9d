-- SUMMARY: Errors of reading, accepting and binding: kinds, system error numbers, and which of them pass by themselves.

/-!
# Input and output errors

An error comes from the system with a number, or it is made by a program with a
kind and a text. Only a few kinds matter: those that pass by themselves, so that
the operation is worth trying again.
-/

namespace MetricIntake

/-- The kinds of errors. -/
inductive IoKind where
  | notFound | permissionDenied | connectionRefused | connectionReset | hostUnreachable
  | networkUnreachable | connectionAborted | notConnected | addrInUse | addrNotAvailable
  | networkDown | brokenPipe | alreadyExists | wouldBlock | notADirectory | isADirectory
  | directoryNotEmpty | readOnlyFilesystem | staleNetworkFileHandle | invalidInput | invalidData
  | timedOut | writeZero | storageFull | notSeekable | quotaExceeded | fileTooLarge | resourceBusy
  | executableFileBusy | deadlock | crossesDevices | tooManyLinks | invalidFilename
  | argumentListTooLong | interrupted | unsupported | unexpectedEof | outOfMemory | other
  deriving DecidableEq, Repr

namespace IoKind

/-- Every kind with its name. -/
def table : List (IoKind × String) :=
  [(.notFound, "NotFound"), (.permissionDenied, "PermissionDenied"),
    (.connectionRefused, "ConnectionRefused"), (.connectionReset, "ConnectionReset"),
    (.hostUnreachable, "HostUnreachable"), (.networkUnreachable, "NetworkUnreachable"),
    (.connectionAborted, "ConnectionAborted"), (.notConnected, "NotConnected"),
    (.addrInUse, "AddrInUse"), (.addrNotAvailable, "AddrNotAvailable"),
    (.networkDown, "NetworkDown"), (.brokenPipe, "BrokenPipe"),
    (.alreadyExists, "AlreadyExists"), (.wouldBlock, "WouldBlock"),
    (.notADirectory, "NotADirectory"), (.isADirectory, "IsADirectory"),
    (.directoryNotEmpty, "DirectoryNotEmpty"), (.readOnlyFilesystem, "ReadOnlyFilesystem"),
    (.staleNetworkFileHandle, "StaleNetworkFileHandle"), (.invalidInput, "InvalidInput"),
    (.invalidData, "InvalidData"), (.timedOut, "TimedOut"), (.writeZero, "WriteZero"),
    (.storageFull, "StorageFull"), (.notSeekable, "NotSeekable"),
    (.quotaExceeded, "QuotaExceeded"), (.fileTooLarge, "FileTooLarge"),
    (.resourceBusy, "ResourceBusy"), (.executableFileBusy, "ExecutableFileBusy"),
    (.deadlock, "Deadlock"), (.crossesDevices, "CrossesDevices"),
    (.tooManyLinks, "TooManyLinks"), (.invalidFilename, "InvalidFilename"),
    (.argumentListTooLong, "ArgumentListTooLong"), (.interrupted, "Interrupted"),
    (.unsupported, "Unsupported"), (.unexpectedEof, "UnexpectedEof"),
    (.outOfMemory, "OutOfMemory"), (.other, "Other")]

def name (k : IoKind) : String := (table.lookup k).getD "Other"

/-- The kind with a name. -/
def named? (s : String) : Option IoKind :=
  (table.find? (·.2 == s)).map (·.1)

/-- Whether an error of this kind passes by itself. -/
def isTransient : IoKind → Bool
  | .connectionAborted | .connectionReset | .interrupted | .wouldBlock | .timedOut => true
  | _ => false

end IoKind

/-- An error of an operation. -/
inductive IoError where
  /-- An error number of the system. -/
  | system (number : Nat)
  | made (kind : IoKind) (message : String)
  deriving DecidableEq, Repr

namespace IoError

/-- The numbers of the errors whose kind passes by itself. -/
def kindOfNumber? : Nat → Option IoKind
  | 4 => some .interrupted
  | 11 => some .wouldBlock
  | 103 => some .connectionAborted
  | 104 => some .connectionReset
  | 110 => some .timedOut
  | _ => none

/-- Out of memory, of descriptors in the system or the process, or of buffers. -/
def exhaustion : List Nat := [12, 23, 24, 105]

/-- Whether an operation that failed is worth trying again after a while. -/
def isTransient : IoError → Bool
  | .system n => n ∈ exhaustion || (kindOfNumber? n).any IoKind.isTransient
  | .made kind _ => kind.isTransient

end IoError
end MetricIntake
