-- SUMMARY: A text connection ingests the points of its lines in order, of all lines when the stream ends and of those that have ended otherwise.
import MetricIntake.Connection.Text
import MetricIntake.Proofs.Connection.Delivery
import MetricIntake.Proofs.Line.Arrival
import MetricIntake.Proofs.Line.Point

/-!
# Text connections

`Course` says how a connection goes: which bytes are delivered, and how and when
it stops. It knows the lines of the bytes and no reader: what has been received
so far extends the idle limit when it ends a line that yields an item. Serving
the connection gives the points of the lines and counts the others; an
unfinished line belongs to them only if the stream ends after it.
-/

namespace MetricIntake.Connection.Text

-- ---------------------------------------------------------------------------
-- Courses
-- ---------------------------------------------------------------------------

/-- How a connection stops, and when. -/
inductive Stop where
  | closed (moment : Nat)
  | failed (moment : Nat) (error : IoError)
  | expired (moment : Nat) (limit : Span)
  | never

namespace Stop

/-- The lines that count: an unfinished one only at the end of the stream. -/
def lines (delivered : List UInt8) : Stop → List (List UInt8)
  | .closed _ => Line.segments delivered
  | _ => Line.ended delivered

/-- The ending of a connection that stops like this; only the end of the stream
    gives a summary. -/
def ending (summary : Summary) : Stop → Ending
  | .closed moment => .returned moment (.ok summary)
  | .failed moment e => .returned moment (.error (.io e))
  | .expired moment limit => .returned moment (.error (.idle limit))
  | .never => .never

end Stop

/-- The rest of a connection at a moment, after some bytes: which bytes it has
    delivered when it stops, and how it stops. The wait for the next item has
    lasted since `since`. -/
inductive Course (max : Nat) (limit : Option Span) :
    (before : List UInt8) → (now since : Nat) → Peer → (delivered : List UInt8) → Stop → Prop
  | ended {before : List UInt8} {now since : Nat} :
    Course max limit before now since [] before (.closed now)
  | closed {before : List UInt8} {now since wait : Nat} {peer : Peer} :
    InTime limit (now + wait - since) →
    Course max limit before now since (⟨wait, .closed⟩ :: peer) before (.closed (now + wait))
  | failed {before : List UInt8} {now since wait : Nat} {peer : Peer} {e : IoError} :
    InTime limit (now + wait - since) →
    Course max limit before now since (⟨wait, .failure e⟩ :: peer) before (.failed (now + wait) e)
  | late {before : List UInt8} {now since : Nat} {read : Read} {peer : Peer} {l : Span} :
    limit = some l → l.nanos < now + read.wait - since →
    Course max limit before now since (read :: peer) before (.expired (since + l.nanos) l)
  | hung {before : List UInt8} {now since wait : Nat} {peer : Peer} {l : Span} :
    limit = some l →
    Course max limit before now since (⟨wait, .never⟩ :: peer) before (.expired (since + l.nanos) l)
  | never {before : List UInt8} {now since wait : Nat} {peer : Peer} :
    limit = none → Course max limit before now since (⟨wait, .never⟩ :: peer) before .never
  | idle {before : List UInt8} {now since wait : Nat} {peer : Peer} {chunk delivered : List UInt8}
      {stop : Stop} :
    InTime limit (now + wait - since) →
    Line.ofEnded max (before ++ chunk) = Line.ofEnded max before →
    Course max limit (before ++ chunk) (now + wait) since peer delivered stop →
    Course max limit before now since (⟨wait, .bytes chunk⟩ :: peer) delivered stop
  | busy {before : List UInt8} {now since wait : Nat} {peer : Peer} {chunk delivered : List UInt8}
      {stop : Stop} :
    InTime limit (now + wait - since) →
    Line.ofEnded max (before ++ chunk) ≠ Line.ofEnded max before →
    Course max limit (before ++ chunk) (now + wait) (now + wait) peer delivered stop →
    Course max limit before now since (⟨wait, .bytes chunk⟩ :: peer) delivered stop

-- ---------------------------------------------------------------------------
-- Serving
-- ---------------------------------------------------------------------------

variable {max : Nat} {limit : Option Span}

/-- Items are added in any number of portions. -/
theorem Progress.add_append (p : Progress) (items items' : List LineReader.Item) :
    p.add (items ++ items') = (p.add items).add items' := by
  simp [Progress.add]

/-- The outcome of a connection that has yielded items and stops. -/
def outcome (items : List LineReader.Item) (stop : Stop) : Outcome :=
  let p := Progress.add {} items
  p.ending (stop.ending ⟨p.ingested.length, p.refused.length⟩)

/-- Serving the rest of a connection goes its course and comes to what the lines that
    count yield. -/
theorem exists_course_serveFrom {before : List UInt8} {now since : Nat} {reader : LineReader}
    (h : LineReader.Received max before reader) (peer : Peer) :
    ∃ delivered stop, Course max limit before now since peer delivered stop ∧
      serveFrom limit peer now since reader (Progress.add {} (Line.ofEnded max before)) =
        outcome ((stop.lines delivered).filterMap (Line.bounded? max)) stop := by
  induction peer generalizing before now since reader with
  | nil =>
    refine ⟨before, _, .ended, ?_⟩
    rw [serveFrom, ← Progress.add_append, ← h.close]
    rfl
  | cons read peer ih =>
    obtain ⟨wait, arrival⟩ := read
    rw [serveFrom]
    dsimp only
    cases hover : overdue limit since (now + wait) with
    | some late =>
      obtain ⟨l, expiry⟩ := late
      obtain ⟨hlimit, hlate, rfl⟩ := overdue_eq_some hover
      exact ⟨before, _, .late hlimit hlate, rfl⟩
    | none =>
      have htime := overdue_eq_none_iff.1 hover
      cases arrival with
      | failure e => exact ⟨before, _, .failed htime, rfl⟩
      | closed =>
        refine ⟨before, _, .closed htime, ?_⟩
        dsimp only
        rw [← Progress.add_append, ← h.close]
        rfl
      | never =>
        cases limit with
        | none => exact ⟨before, _, .never rfl, rfl⟩
        | some l => exact ⟨before, _, .hung rfl, rfl⟩
      | bytes chunk =>
        obtain ⟨hended, hreceived⟩ := h.drain_feed chunk
        dsimp only
        rw [← Progress.add_append, ← hended]
        cases hitems : (reader.feed chunk).drain.1 with
        | nil =>
          rw [hitems, List.append_nil] at hended
          obtain ⟨delivered, stop, hcourse, hserve⟩ := ih hreceived
          exact ⟨delivered, stop, .idle htime hended hcourse, hserve⟩
        | cons item items =>
          have hmore : Line.ofEnded max (before ++ chunk) ≠ Line.ofEnded max before := by
            rw [hended, hitems]
            simp
          obtain ⟨delivered, stop, hcourse, hserve⟩ := ih hreceived
          exact ⟨delivered, stop, .busy htime hmore hcourse, hserve⟩

/-! ## Points and refusals -/

/-- The items of lines give the points of these lines, and the refusals are the lines
    that are counted. -/
theorem fates_of_lines (max : Nat) (lines : List (List UInt8)) :
    let p := Progress.add {} (lines.filterMap (Line.bounded? max))
    Line.Fates max lines p.ingested p.refused.length := by
  induction lines with
  | nil => exact .nil
  | cons line lines ih =>
    have hyields := Line.yields_bounded? max line
    simp only [Progress.add, List.nil_append] at ih ⊢
    cases hitem : Line.bounded? max line with
    | none =>
      rw [hitem] at hyields
      simpa [hitem] using Line.Fates.cons hyields.fate_nil ih
    | some item =>
      rw [hitem] at hyields
      cases hresult : item >>= Point.ofLine with
      | ok p =>
        simpa [hitem, hresult, Progress.point?, Progress.refusal?, Except.toOption]
          using Line.Fates.cons (hyields.fate_ok hresult) ih
      | error e =>
        simpa [hitem, hresult, Progress.point?, Progress.refusal?, Except.toOption, Nat.add_comm 1]
          using Line.Fates.cons (hyields.fate_error hresult) ih

/-- A connection gives the sink the points of its lines, each once and in order, and
    counts the lines that are refused. When the stream ends these are all its lines,
    and the summary tells both numbers; when a read fails or the idle limit expires,
    only the lines that have ended count, and the ending says why. -/
theorem exists_course_serve (settings : Settings) (peer : Peer) :
    ∃ delivered stop points refused,
      Course settings.maxLine settings.idle [] 0 0 peer delivered stop ∧
      Line.Fates settings.maxLine (stop.lines delivered) points refused ∧
      (serve settings peer).ingested = points ∧
      (serve settings peer).refused.length = refused ∧
      (serve settings peer).ending = stop.ending ⟨points.length, refused⟩ := by
  obtain ⟨delivered, stop, hcourse, hserve⟩ :=
    @exists_course_serveFrom settings.maxLine settings.idle [] 0 0 _
      (LineReader.received_new settings.maxLine) peer
  have hserve : serve settings peer =
      outcome ((stop.lines delivered).filterMap (Line.bounded? settings.maxLine)) stop := hserve
  refine ⟨delivered, stop, _, _, hcourse, fates_of_lines _ _, ?_⟩
  rw [hserve]
  exact ⟨rfl, rfl, rfl⟩

end MetricIntake.Connection.Text
