-- SUMMARY: Why a listening socket could not be bound, adopted or handed over, with the wording of each cause.
import MetricIntake.Listen
import MetricIntake.IoError
import MetricIntake.Text.Quoted

/-!
# Socket errors
-/

namespace MetricIntake

/-- Where a listening socket is in its life. -/
inductive SocketState where
  /-- No socket yet. -/
  | unbound
  /-- Bound and accepting. -/
  | bound
  /-- Stopped, and still held by the loop that served it. -/
  | draining
  /-- Stopped and let go. -/
  | closed
  deriving DecidableEq, Repr

def SocketState.name : SocketState → String
  | .unbound => "Unbound"
  | .bound => "Bound"
  | .draining => "Draining"
  | .closed => "Closed"

/-- How far a state is along the life of a socket. -/
def SocketState.stage : SocketState → Nat
  | .unbound => 0
  | .bound => 1
  | .draining => 2
  | .closed => 3

/-- What was attempted on a socket in the wrong state. -/
inductive SocketOperation where
  | bind | adopt | serve
  deriving DecidableEq, Repr

def SocketOperation.name : SocketOperation → String
  | .bind => "bind"
  | .adopt => "adopt"
  | .serve => "serve"

/-- Why a listening socket could not be had. -/
inductive SocketError where
  | resolve (spec : String) (fault : ResolveFault)
  | bind (transport : Transport) (spec : String) (kind : IoKind)
  | notASocket (fd : Int) (protocol : String)
  | wrongType (fd : Int) (expected : Transport)
  | invalidState (operation : SocketOperation) (state : SocketState)
  | io (kind : IoKind)
  deriving DecidableEq, Repr

/-- The system's text for the kinds of errors that binding and converting meet. -/
def IoKind.systemText : IoKind → String
  | .addrInUse => "Address already in use (os error 98)"
  | .addrNotAvailable => "Cannot assign requested address (os error 99)"
  | .permissionDenied => "Permission denied (os error 13)"
  | .invalidInput => "invalid argument"
  | k => k.name

def SocketError.message : SocketError → String
  | .resolve spec fault => "invalid listen spec " ++ Text.quote spec ++ ": " ++ fault.message
  | .bind transport spec kind =>
    "failed to bind " ++ transport.name ++ " socket on " ++ spec ++ ": " ++ kind.systemText
  | .notASocket fd protocol =>
    "inherited fd " ++ toString fd ++ " (" ++ protocol ++ ") is not a valid socket"
  | .wrongType fd expected =>
    "inherited fd " ++ toString fd ++ " is not a " ++ expected.name ++ " socket"
  | .invalidState operation state =>
    "cannot " ++ operation.name ++ " a socket in state " ++ state.name
  | .io kind => "IO error: " ++ kind.systemText

/-- Whether finding the error took time, as a look-up does: a spec that is not a
    plain address is looked up. -/
def SocketError.tookTime : SocketError → Bool
  | .resolve _ _ => true
  | _ => false

end MetricIntake
