-- SUMMARY: What the signals of the system ask a running process to do.

/-!
# Signals
-/

namespace MetricIntake

/-- The signals that a process listens to. -/
inductive Signal where
  | terminate | interrupt | quit
  deriving DecidableEq, Repr

/-- What a process is asked to do. -/
inductive LifecycleRequest where
  /-- Stop accepting, let connections end, and exit. -/
  | terminate
  /-- Hand the sockets to a successor, then as above. -/
  | restart
  deriving DecidableEq, Repr

def LifecycleRequest.name : LifecycleRequest → String
  | .terminate => "Terminate"
  | .restart => "Restart"

/-- What a signal asks for. -/
def Signal.request : Signal → LifecycleRequest
  | .terminate | .interrupt => .terminate
  | .quit => .restart

/-- The signal with a short name. -/
def Signal.named? : String → Option Signal
  | "TERM" => some .terminate
  | "INT" => some .interrupt
  | "QUIT" => some .quit
  | _ => none

end MetricIntake
