-- SUMMARY: A connection that sends lines, each a point: items as they complete, and an idle limit on every item.
import MetricIntake.Connection.Basic
import MetricIntake.Line.Reader
import MetricIntake.Line.Point
import MetricIntake.Settings

/-!
# Text connections

Every line that completes yields an item, which is a point or the reason why
not; refused lines do not end the connection. The idle limit runs from one item
to the next. Bytes that complete no item do not extend it, whether they belong
to an unfinished, a blank or a discarded line.

At the end of the stream the last line needs no line feed. When a read fails or
the limit expires, an unfinished line is lost.
-/

namespace MetricIntake.Connection.Text

/-- What the lines so far have come to. -/
structure Progress where
  ingested : List Point := []
  refused : List DecodeError := []
  deriving Repr

namespace Progress

/-- The point of an item. -/
def point? (item : LineReader.Item) : Option Point :=
  (item >>= Point.ofLine).toOption

/-- Why an item has no point. -/
def refusal? (item : LineReader.Item) : Option DecodeError :=
  match item >>= Point.ofLine with
  | .ok _ => none
  | .error e => some e

def add (p : Progress) (items : List LineReader.Item) : Progress where
  ingested := p.ingested ++ items.filterMap point?
  refused := p.refused ++ items.filterMap refusal?

/-- The outcome of a connection that ends like this. -/
def ending (p : Progress) (e : Ending) : Outcome := ⟨p.ingested, p.refused, e⟩

/-- The connection fails. -/
def failed (p : Progress) (moment : Nat) (f : Fault) : Outcome :=
  p.ending (.returned moment (.error f))

/-- The stream ends. -/
def finished (p : Progress) (moment : Nat) : Outcome :=
  p.ending (.returned moment (.ok ⟨p.ingested.length, p.refused.length⟩))

end Progress

/-- Serves the rest of a connection at a moment. The wait for the next item has
    lasted since `since`. -/
def serveFrom (limit : Option Span) :
    (peer : Peer) → (now since : Nat) → LineReader → Progress → Outcome
  | [], now, _, reader, p => (p.add reader.close).finished now
  | read :: peer, now, since, reader, p =>
    let moment := now + read.wait
    match overdue limit since moment with
    | some (l, expiry) => p.failed expiry (.idle l)
    | none =>
      match read.arrival with
      | .bytes chunk =>
        let (items, reader) := (reader.feed chunk).drain
        serveFrom limit peer moment (if items.isEmpty then since else moment) reader (p.add items)
      | .failure e => p.failed moment (.io e)
      | .closed => (p.add reader.close).finished moment
      | .never => p.ending (endlessly limit since)

/-- Serves a connection from its start. -/
def serve (settings : Settings) (peer : Peer) : Outcome :=
  serveFrom settings.idle peer 0 0 { maxLength := settings.maxLine } {}

end MetricIntake.Connection.Text
