-- SUMMARY: What a process is started with: listen specs, inherited keys, timeouts and log format, and how each value is read.
import MetricIntake.Program
import MetricIntake.Settings
import MetricIntake.Successor

/-!
# Options

An option is given by a flag on the command line or by a variable in the
environment, and takes one value. Listen specs and inherited keys are taken as
they are; timeouts are whole seconds of 64 bits; the log format is one of two
words.
-/

namespace MetricIntake

/-- How log records are written. -/
inductive LogFormat where
  /-- Lines for people. -/
  | text
  /-- One JSON object per record. -/
  | json
  deriving DecidableEq, Repr

namespace LogFormat

def all : List LogFormat := [.text, .json]

/-- The value that asks for a format. -/
def word : LogFormat → String
  | .text => "text"
  | .json => "json"

/-- The format that a value asks for. -/
def ofWord? (word : String) : Option LogFormat := all.find? (·.word == word)

end LogFormat

/-- The options of a process. -/
structure Options where
  listen : ListenConfig := {}
  /-- The keys of the inherited sockets. -/
  inherited : String := ""
  /-- How long a peer may keep a connection waiting; zero means for ever. -/
  idleSeconds : UInt64 := 10
  /-- How long connections may go on after a stop. -/
  drainSeconds : UInt64 := 30
  logFormat : LogFormat := .text
  deriving DecidableEq, Repr

namespace Options

/-- The limits that connections are served under. -/
def settings (o : Options) : Settings := ({} : Settings).withIdleSeconds o.idleSeconds.toNat

/-- How long a drain may take. -/
def drainTimeout (o : Options) : Span := .ofSeconds o.drainSeconds.toNat

/-- The manifest of the inherited sockets. -/
def manifest (o : Options) : Manifest := Manifest.parse o.inherited

end Options

/-! ## Flags -/

/-- The flags, each of which sets one option. -/
inductive Flag where
  | listen (protocol : Protocol)
  | inherited
  | idleTimeout
  | drainTimeout
  | logFormat
  deriving DecidableEq, Repr

namespace Flag

/-- All flags, in the order in which the environment is looked at. -/
def all : List Flag :=
  Protocol.all.map listen ++ [inherited, idleTimeout, drainTimeout, logFormat]

/-- What stands after the two dashes. -/
def name : Flag → String
  | listen .graphiteText => "graphite-text-listen"
  | listen .graphiteUdp => "graphite-udp-listen"
  | listen .graphitePickle => "graphite-pickle-listen"
  | listen .http => "http-listen"
  | inherited => "graceful-protos"
  | idleTimeout => "idle-timeout-secs"
  | drainTimeout => "drain-timeout-secs"
  | logFormat => "log-format"

/-- The variable of the environment that stands in for an absent flag. -/
def environmentName : Flag → String
  | listen .graphiteText => "TIMERIVER_GRAPHITE_TEXT_LISTEN"
  | listen .graphiteUdp => "TIMERIVER_GRAPHITE_UDP_LISTEN"
  | listen .graphitePickle => "TIMERIVER_GRAPHITE_PICKLE_LISTEN"
  | listen .http => "TIMERIVER_HTTP_LISTEN"
  | inherited => Successor.manifestVariable
  | idleTimeout => "TIMERIVER_IDLE_TIMEOUT_SECS"
  | drainTimeout => "TIMERIVER_DRAIN_TIMEOUT_SECS"
  | logFormat => "TIMERIVER_LOG_FORMAT"

/-- The flag with a name; names are never shortened. -/
def named? (name : String) : Option Flag := all.find? (·.name == name)

theorem mem_all (f : Flag) : f ∈ all := by
  cases f with
  | listen p => cases p <;> decide
  | _ => decide

@[simp] theorem named?_name (f : Flag) : named? f.name = some f := by
  cases f with
  | listen p => cases p <;> decide
  | _ => decide

end Flag

/-! ## Setting an option -/

/-- Why reading the options ended without options. -/
inductive OptionsEnd where
  | help
  | version
  | unknown (argument : String)
  | missingValue (flag : Flag)
  | repeated (flag : Flag)
  /-- A flag that takes no value has one. -/
  | unexpectedValue (argument : String)
  | notSeconds (flag : Flag) (value : String) (fault : Literal.IntegerFault)
  | notAFormat (value : String)
  deriving DecidableEq, Repr

def OptionsEnd.message : OptionsEnd → String
  | .help => "Options: " ++ " ".intercalate (Flag.all.map fun f => "--" ++ f.name ++ " <value>")
  | .version => Program.name ++ " " ++ Program.version
  | .unknown argument => "unexpected argument " ++ Text.quote argument
  | .missingValue flag => "a value is required for --" ++ flag.name
  | .repeated flag => "--" ++ flag.name ++ " cannot be used multiple times"
  | .unexpectedValue argument => "unexpected value in " ++ Text.quote argument
  | .notSeconds flag value fault =>
    "invalid value " ++ Text.quote value ++ " for --" ++ flag.name ++ ": " ++ fault.message
  | .notAFormat value =>
    "invalid value " ++ Text.quote value ++ " for --" ++ Flag.logFormat.name ++ ": expected "
      ++ " or ".intercalate (LogFormat.all.map LogFormat.word)

/-- Replaces the spec of a protocol. -/
def ListenConfig.withSpec (c : ListenConfig) (p : Protocol) (spec : String) : ListenConfig :=
  match p with
  | .graphiteText => { c with graphiteText := spec }
  | .graphiteUdp => { c with graphiteUdp := spec }
  | .graphitePickle => { c with graphitePickle := spec }
  | .http => { c with http := spec }

namespace Options

/-- Reads a number of seconds. -/
def readSeconds (flag : Flag) (value : String) : Except OptionsEnd UInt64 :=
  match Literal.readNatBelow UInt64.size value.toList with
  | .ok n => .ok (UInt64.ofNat n)
  | .error fault => .error (.notSeconds flag value fault)

/-- Sets the option of a flag to what a value denotes. -/
def set (o : Options) (flag : Flag) (value : String) : Except OptionsEnd Options :=
  match flag with
  | .listen p => .ok { o with listen := o.listen.withSpec p value }
  | .inherited => .ok { o with inherited := value }
  | .idleTimeout => (readSeconds flag value).map fun n => { o with idleSeconds := n }
  | .drainTimeout => (readSeconds flag value).map fun n => { o with drainSeconds := n }
  | .logFormat =>
    match LogFormat.ofWord? value with
    | some format => .ok { o with logFormat := format }
    | none => .error (.notAFormat value)

end Options
end MetricIntake
