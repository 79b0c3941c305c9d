-- SUMMARY: The receive loop of a datagram socket: one reused buffer, waits after errors, an end by request only.
import MetricIntake.Backoff
import MetricIntake.IoError
import MetricIntake.Line.Datagram
import MetricIntake.Listener.Accept

/-!
# Receiving datagrams

All datagrams are received into one buffer. A datagram overwrites the front of
it, and only as many bytes as were received are decoded. Every error is waited
out, whether it passes by itself or not, so the loop ends by request only.
-/

namespace MetricIntake.Listener

/-- The size of the receive buffer: the largest datagram. -/
def datagramCapacity : Nat := 64 * 1024

/-- A receive: how many nanoseconds it takes, and what it meets. -/
abbrev Receive := Attempt (List UInt8)

/-- The buffer after a datagram was received, and how many bytes of it count. -/
def receiveInto (buffer datagram : List UInt8) : List UInt8 × Nat :=
  let received := datagram.take datagramCapacity
  (received ++ buffer.drop received.length, received.length)

/-- The whole run of a receive loop. -/
structure DatagramRun where
  /-- Points given to the sink, in order. -/
  ingested : List Point := []
  /-- Why lines were refused, in order. -/
  refused : List DecodeError := []
  /-- The waits after errors. -/
  delays : List Span := []
  /-- When the loop ended, if it did. -/
  exit : Option Nat := none

namespace DatagramRun

/-- A run that begins with the lines of a datagram. -/
def ingest (items : List (Except DecodeError Point)) (r : DatagramRun) : DatagramRun :=
  { r with
    ingested := items.filterMap Except.toOption ++ r.ingested
    refused := items.filterMap (fun | .error e => some e | .ok _ => none) ++ r.refused }

/-- A run that begins with a wait. -/
def backOff (delay : Span) (r : DatagramRun) : DatagramRun :=
  { r with delays := delay :: r.delays }

end DatagramRun

/-- Runs the loop from a moment at which it has not been asked to stop. -/
def receiveFrom (stop : Option Nat) :
    List Receive → (now : Nat) → Backoff → (buffer : List UInt8) → DatagramRun
  | [], now, _, _ => { exit := stop.map (max now) }
  | receive :: receives, now, backoff, buffer =>
    let moment := now + receive.wait
    match stopBy stop moment with
    | some s => { exit := some (max now s) }
    | none =>
      match receive.result with
      | .ok datagram =>
        let (buffer, length) := receiveInto buffer datagram
        (receiveFrom stop receives moment backoff.reset buffer).ingest
          (Datagram.points (buffer.take length))
      | .error _ =>
        let delay := backoff.nextDelay
        let resumed := moment + delay.nanos
        .backOff delay <|
          match stopBy stop resumed with
          | some s => { exit := some s }
          | none => receiveFrom stop receives resumed backoff.fail buffer

/-- Runs a receive loop from the start, with an empty buffer. -/
def receive (config : BackoffConfig) (stop : Option Nat) (receives : List Receive) :
    DatagramRun :=
  receiveFrom stop receives 0 { config } (List.replicate datagramCapacity 0)

end MetricIntake.Listener
