-- SUMMARY: Where services listen: one spec per protocol, defaults, and how a spec resolves to an address.
import MetricIntake.Protocol
import MetricIntake.Number.Literal

/-!
# Listen specs

A spec is `host:port`. Without a host the service listens on all interfaces, and
an empty spec disables it. Hosts are IPv4 addresses: four bytes with points
between them, of which the last ones may be written as one number (`127.1`), in
decimal, octal or hexadecimal. Names other than `localhost` are not looked up.
-/

namespace MetricIntake

/-! ## Configuration -/

/-- One spec per protocol. -/
structure ListenConfig where
  graphiteText : String := "0.0.0.0:2003"
  graphiteUdp : String := "0.0.0.0:2003"
  graphitePickle : String := "0.0.0.0:2004"
  http : String := "0.0.0.0:8088"
  deriving DecidableEq, Repr

namespace ListenConfig

/-- The same spec for every protocol. -/
def uniform (spec : String) : ListenConfig := ⟨spec, spec, spec, spec⟩

/-- Every service disabled. -/
def disabled : ListenConfig := uniform ""

/-- Every service on a free port of the loopback interface. -/
def loopback : ListenConfig := uniform "127.0.0.1:0"

def spec (c : ListenConfig) : Protocol → String
  | .graphiteText => c.graphiteText
  | .graphiteUdp => c.graphiteUdp
  | .graphitePickle => c.graphitePickle
  | .http => c.http

/-- What is announced about a protocol; a disabled one has no spec. -/
structure Announcement where
  protocol : Protocol
  listen : Option String
  deriving DecidableEq, Repr

def Announcement.message (a : Announcement) : String :=
  a.protocol.title ++ ": " ++ a.listen.getD "disabled"

/-- The announcements of a configuration. -/
def announcements (c : ListenConfig) : List Announcement :=
  Protocol.all.map fun p => ⟨p, if (c.spec p).isEmpty then none else some (c.spec p)⟩

end ListenConfig

/-! ## Addresses -/

/-- An IPv4 address. -/
structure Ip where
  a : UInt8
  b : UInt8
  c : UInt8
  d : UInt8
  deriving DecidableEq, Repr

namespace Ip

/-- All interfaces. -/
def any : Ip := ⟨0, 0, 0, 0⟩

/-- The host itself. -/
def loopback : Ip := ⟨127, 0, 0, 1⟩

def text (ip : Ip) : String :=
  ".".intercalate ([ip.a, ip.b, ip.c, ip.d].map fun b => toString b.toNat)

/-- The address whose four bytes are the digits of a number to the base 256. -/
def ofNat (n : Nat) : Ip :=
  ⟨UInt8.ofNat (n / 16777216), UInt8.ofNat (n / 65536), UInt8.ofNat (n / 256), UInt8.ofNat n⟩

/-- One number of an address text: hexadecimal after `0x`, octal after another
    zero, decimal otherwise. -/
def number? : List Char → Option Nat
  | [] => none
  | ['0', 'x'] | ['0', 'X'] => none
  | '0' :: 'x' :: cs | '0' :: 'X' :: cs => Literal.readRadix? 16 cs
  | '0' :: cs => Literal.readRadix? 8 cs
  | cs => Literal.readRadix? 10 cs

/-- The number of `width` bytes that the numbers of an address text make up: one
    byte each, and the last one all the bytes that are left. -/
def join? : (width : Nat) → List Nat → Option Nat
  | 0, _ | _, [] => none
  | w, [n] => if n < Nat.pow 256 w then some n else none
  | w + 1, n :: ns => if n < 256 then (join? w ns).map (n * Nat.pow 256 w + ·) else none

/-- The address that a text of one to four numbers denotes. -/
def ofText? (cs : List Char) : Option Ip :=
  ((cs.splitOn '.').mapM number?).bind fun ns => (join? 4 ns).map ofNat

/-- The address of a host; the one name that needs no look-up is `localhost`, in
    any case. -/
def ofHost? (cs : List Char) : Option Ip :=
  if cs.map Char.toLower = "localhost".toList then some loopback else ofText? cs

end Ip

/-- An address that a socket is bound to. -/
structure Address where
  ip : Ip
  port : UInt16
  deriving DecidableEq, Repr

def Address.text (a : Address) : String := a.ip.text ++ ":" ++ toString a.port.toNat

/-! ## Resolution -/

/-- Why a spec has no address. -/
inductive ResolveFault where
  | noPort
  | invalidPort
  /-- No name holds a NUL. -/
  | nulInHost
  | unknownHost
  deriving DecidableEq, Repr

def ResolveFault.message : ResolveFault → String
  | .noPort => "invalid socket address"
  | .invalidPort => "invalid port value"
  | .nulInHost => "file name contained an unexpected NUL byte"
  | .unknownHost => "failed to lookup address information: Name or service not known"

/-- A text before and after its last colon. -/
def splitLastColon? (cs : List Char) : Option (List Char × List Char) :=
  match cs.reverse.dropWhile (· != ':') with
  | [] => none
  | _ :: before => some (before.reverse, (cs.reverse.takeWhile (· != ':')).reverse)

/-- The address that a spec denotes; a spec that begins with a colon listens on
    all interfaces. -/
def resolveSpec (spec : String) : Except ResolveFault Address :=
  let cs := spec.toList
  let full := if cs.head? = some ':' then "0.0.0.0".toList ++ cs else cs
  match splitLastColon? full with
  | none => .error .noPort
  | some (host, port) =>
    match Literal.readNatBelow UInt16.size port with
    | .error _ => .error .invalidPort
    | .ok port =>
      if host.contains '\x00' then .error .nulInHost
      else match Ip.ofHost? host with
        | none => .error .unknownHost
        | some ip => .ok ⟨ip, UInt16.ofNat port⟩

end MetricIntake
