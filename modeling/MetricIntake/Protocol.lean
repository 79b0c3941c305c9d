-- SUMMARY: The four protocols that points arrive by or that are served beside them, their keys and transports.

/-!
# Protocols

The set of protocols is fixed and so is their order: services are started,
listed and handed over in it. A protocol is named by a short key where a
successor process has to recognise it.
-/

namespace MetricIntake

/-- How a socket carries data. -/
inductive Transport where
  | tcp | udp
  deriving DecidableEq, Repr

def Transport.name : Transport → String
  | .tcp => "tcp"
  | .udp => "udp"

/-- A protocol that a service speaks. -/
inductive Protocol where
  | graphiteText | graphiteUdp | graphitePickle | http
  deriving DecidableEq, Repr

namespace Protocol

/-- All protocols, in their order. -/
def all : List Protocol := [.graphiteText, .graphiteUdp, .graphitePickle, .http]

/-- The name of a protocol in a manifest. -/
def key : Protocol → String
  | .graphiteText => "gt"
  | .graphiteUdp => "gu"
  | .graphitePickle => "gp"
  | .http => "www"

/-- The protocol with a key. -/
def ofKey? (key : String) : Option Protocol := all.find? (·.key == key)

/-- The name of a protocol in messages. -/
def title : Protocol → String
  | .graphiteText => "Graphite text protocol"
  | .graphiteUdp => "Graphite UDP protocol"
  | .graphitePickle => "Graphite pickle protocol"
  | .http => "HTTP server"

def transport : Protocol → Transport
  | .graphiteUdp => .udp
  | _ => .tcp

/-- The place of a protocol in the order. -/
def index (p : Protocol) : Nat := all.idxOf p

instance : LT Protocol := ⟨fun p q => p.index < q.index⟩

instance (p q : Protocol) : Decidable (p < q) := inferInstanceAs (Decidable (p.index < q.index))

theorem mem_all (p : Protocol) : p ∈ all := by cases p <;> decide

@[simp] theorem ofKey?_key (p : Protocol) : ofKey? p.key = some p := by cases p <;> rfl

/-- A key names one protocol. -/
theorem key_injective {p q : Protocol} (h : p.key = q.key) : p = q := by
  rw [← Option.some_inj, ← ofKey?_key p, h, ofKey?_key]

end Protocol
end MetricIntake
