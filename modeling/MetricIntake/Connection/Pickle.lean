-- SUMMARY: A connection that sends one pickled batch: framing, a size limit, and an idle limit on every read.
import MetricIntake.Connection.Basic
import MetricIntake.Pickle.Framer
import MetricIntake.Pickle.Batch
import MetricIntake.Settings

/-!
# Pickle connections

The connection carries one batch. As soon as the bytes that have arrived hold a
complete pickle, or cannot be the start of one, they are unpickled and the
connection is over; what follows the pickle is ignored. The idle limit runs from
one read to the next, and the size limit is looked at after each of them.

Collecting the bytes and decoding them are two steps, and points are given to
the sink by the second alone.
-/

namespace MetricIntake.Connection.Pickle

/-! ## Collecting -/

/-- What the reads of a connection come to. -/
inductive Collected where
  /-- Bytes to unpickle. -/
  | payload (moment : Nat) (bytes : List UInt8)
  /-- The stream ended without a byte. -/
  | nothing (moment : Nat)
  | failed (moment : Nat) (fault : Fault)
  /-- The last read never gets anything, and nothing limits it. -/
  | never
  deriving DecidableEq, Repr

/-- The end of the stream. -/
def atEnd (moment : Nat) (buffer : List UInt8) : Collected :=
  if buffer.isEmpty then .nothing moment else .payload moment buffer

/-- A read that never gets anything. -/
def waiting (limit : Option Span) (now : Nat) : Collected :=
  match limit with
  | none => .never
  | some l => .failed (now + l.nanos) (.idle l)

/-- Collects the rest of a connection at a moment. -/
def collectFrom (limit : Option Span) (maxPickle : Nat) :
    (peer : Peer) → (now : Nat) → MetricIntake.Pickle.Framer → (buffer : List UInt8) → Collected
  | [], now, _, buffer => atEnd now buffer
  | read :: peer, now, framer, buffer =>
    let moment := now + read.wait
    match overdue limit now moment with
    | some (l, expiry) => .failed expiry (.idle l)
    | none =>
      match read.arrival with
      | .bytes chunk =>
        let buffer := buffer ++ chunk
        if maxPickle < buffer.length then .failed moment (.decode (.payloadTooLarge maxPickle))
        else
          match framer.scan buffer with
          | (.complete length, _) => .payload moment (buffer.take length)
          | (.invalid, _) => .payload moment buffer
          | (.incomplete, framer) => collectFrom limit maxPickle peer moment framer buffer
      | .failure e => .failed moment (.io e)
      | .closed => atEnd moment buffer
      | .never => waiting limit now

/-- Collects a connection from its start. -/
def collect (settings : Settings) (peer : Peer) : Collected :=
  collectFrom settings.idle settings.maxPickle peer 0 {} []

/-! ## Serving -/

/-- The outcome of unpickling a payload: its points go to the sink up to the
    first malformed record. -/
def deliver (unpickle : MetricIntake.Pickle.Unpickler) (moment : Nat) (payload : List UInt8) :
    Outcome :=
  match Batch.ofPickleWith unpickle payload with
  | .error e => { ending := .returned moment (.error (.decode e)) }
  | .ok batch =>
    let points := batch.points
    { ingested := points
      ending := .returned moment <|
        match batch.fault? with
        | some e => .error (.decode e)
        | none => .ok { points := points.length } }

/-- Serves a connection for an unpickler. -/
def serveWith (unpickle : MetricIntake.Pickle.Unpickler) (settings : Settings) (peer : Peer) :
    Outcome :=
  match collect settings peer with
  | .payload moment bytes => deliver unpickle moment bytes
  | .nothing moment => { ending := .returned moment (.ok {}) }
  | .failed moment f => { ending := .returned moment (.error f) }
  | .never => { ending := .never }

/-- Serves a connection. -/
def serve : Settings → Peer → Outcome :=
  serveWith MetricIntake.Pickle.Value.ofPickle

end MetricIntake.Connection.Pickle
