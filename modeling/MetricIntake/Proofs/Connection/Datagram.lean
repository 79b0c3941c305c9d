-- SUMMARY: A text connection whose lines are within the bound comes to what a datagram of the same bytes comes to, however it is cut.
import MetricIntake.Line.Datagram
import MetricIntake.Proofs.Connection.Text

/-!
# Text connections and datagrams

A datagram is cut into lines at once, a connection while it arrives. A bound on the
length of lines is all that tells the two apart: within it the same lines are
accepted, refused and set aside, in the same order, and an unfinished last line
counts when the stream ends. When the reads come is of no account as long as the
stream ends in time.
-/

namespace MetricIntake.Connection.Text

variable {max : Nat} {limit : Option Span} {before delivered : List UInt8} {now since : Nat}
  {peer : Peer} {stop : Stop}

-- ---------------------------------------------------------------------------
-- Courses of a peer
-- ---------------------------------------------------------------------------

/-- A connection goes one course. -/
theorem Course.unique (h : Course max limit before now since peer delivered stop)
    {delivered' : List UInt8} {stop' : Stop}
    (h' : Course max limit before now since peer delivered' stop') :
    delivered = delivered' ∧ stop = stop' := by
  induction h with
  | ended => cases h' with
    | ended => exact ⟨rfl, rfl⟩
  | closed htime => cases h' with
    | closed => exact ⟨rfl, rfl⟩
    | late hlimit hlate => exact absurd hlate (htime.not_late hlimit)
  | failed htime => cases h' with
    | failed => exact ⟨rfl, rfl⟩
    | late hlimit hlate => exact absurd hlate (htime.not_late hlimit)
  | late hlimit hlate => cases h' with
    | late hlimit' =>
      obtain rfl := Option.some.inj (hlimit.symm.trans hlimit')
      exact ⟨rfl, rfl⟩
    | hung hlimit' =>
      obtain rfl := Option.some.inj (hlimit.symm.trans hlimit')
      exact ⟨rfl, rfl⟩
    | never hnone => cases hlimit.symm.trans hnone
    | closed htime => exact absurd hlate (htime.not_late hlimit)
    | failed htime => exact absurd hlate (htime.not_late hlimit)
    | idle htime => exact absurd hlate (htime.not_late hlimit)
    | busy htime => exact absurd hlate (htime.not_late hlimit)
  | hung hlimit => cases h' with
    | hung hlimit' =>
      obtain rfl := Option.some.inj (hlimit.symm.trans hlimit')
      exact ⟨rfl, rfl⟩
    | late hlimit' =>
      obtain rfl := Option.some.inj (hlimit.symm.trans hlimit')
      exact ⟨rfl, rfl⟩
    | never hnone => cases hlimit.symm.trans hnone
  | never hnone => cases h' with
    | never => exact ⟨rfl, rfl⟩
    | late hlimit => cases hnone.symm.trans hlimit
    | hung hlimit => cases hnone.symm.trans hlimit
  | idle htime hsame _ ih => cases h' with
    | late hlimit hlate => exact absurd hlate (htime.not_late hlimit)
    | idle _ _ h' => exact ih h'
    | busy _ hmore => exact absurd hsame hmore
  | busy htime hmore _ ih => cases h' with
    | late hlimit hlate => exact absurd hlate (htime.not_late hlimit)
    | idle _ hsame => exact absurd hsame hmore
    | busy _ _ h' => exact ih h'

/-- A peer that sends chunks, each after a wait, and then closes the stream. -/
def sending (cut : List (Nat × List UInt8)) (last : Nat) : Peer :=
  cut.map (fun (wait, chunk) => ⟨wait, .bytes chunk⟩) ++ [⟨last, .closed⟩]

/-- The time that it takes. -/
def sendingTime : (cut : List (Nat × List UInt8)) → (last : Nat) → Nat
  | [], last => last
  | read :: cut, last => read.1 + sendingTime cut last

/-- A stream that takes no longer than the idle limit ends in time, however it is cut:
    items along the way only give it more time. -/
theorem course_sending (cut : List (Nat × List UInt8)) {last : Nat} (hsince : since ≤ now)
    (htime : InTime limit (now + sendingTime cut last - since)) :
    Course max limit before now since (sending cut last) (before ++ cut.flatMap Prod.snd)
      (.closed (now + sendingTime cut last)) := by
  induction cut generalizing before now since with
  | nil =>
    rw [List.flatMap_nil, List.append_nil]
    exact .closed htime
  | cons read cut ih =>
    obtain ⟨wait, chunk⟩ := read
    have htotal : now + sendingTime ((wait, chunk) :: cut) last =
        now + wait + sendingTime cut last := (Nat.add_assoc now wait _).symm
    rw [htotal] at htime ⊢
    have hread : InTime limit (now + wait - since) := htime.mono (by omega)
    rw [List.flatMap_cons, ← List.append_assoc]
    by_cases hsame : Line.ofEnded max (before ++ chunk) = Line.ofEnded max before
    · exact .idle hread hsame (ih (by omega) htime)
    · exact .busy hread hsame (ih le_rfl (htime.mono (by omega)))

-- ---------------------------------------------------------------------------
-- Lines within the bound
-- ---------------------------------------------------------------------------

/-- Why a line of a datagram was refused. -/
def error? : Except DecodeError Point → Option DecodeError
  | .ok _ => none
  | .error e => some e

/-- What a datagram comes to, told as the outcome of a connection that ends at a
    moment. -/
def ofDatagram (payload : List UInt8) (moment : Nat) : Outcome :=
  let items := Datagram.points payload
  { ingested := items.filterMap Except.toOption
    refused := items.filterMap error?
    ending := .returned moment (.ok ⟨items.countP Except.isOk, items.countP (!·.isOk)⟩) }

theorem length_filterMap_toOption (items : List (Except DecodeError Point)) :
    (items.filterMap Except.toOption).length = items.countP Except.isOk := by
  rw [List.length_filterMap_eq_countP]
  refine List.countP_congr fun item _ => ?_
  cases item <;> rfl

theorem length_filterMap_error? (items : List (Except DecodeError Point)) :
    (items.filterMap error?).length = items.countP (!·.isOk) := by
  rw [List.length_filterMap_eq_countP]
  refine List.countP_congr fun item _ => ?_
  cases item <;> rfl

/-- The items of lines that are within the bound are those of the lines of a datagram. -/
theorem outcome_of_bounded {bytes : List UInt8} {moment : Nat}
    (hbound : ∀ line ∈ Line.segments bytes, line.length ≤ max) :
    outcome ((Line.segments bytes).filterMap (Line.bounded? max)) (.closed moment) =
      ofDatagram bytes moment := by
  have hitems : (Line.segments bytes).filterMap (Line.bounded? max) =
      (Line.segments bytes).filterMap Line.item? := by
    refine List.filterMap_congr fun line hline => ?_
    rw [Line.bounded?, if_neg (Nat.not_lt.2 (hbound line hline))]
  have hingested : ((Line.segments bytes).filterMap Line.item?).filterMap Progress.point? =
      (Datagram.points bytes).filterMap Except.toOption := by
    rw [Datagram.points, List.filterMap_map]
    rfl
  have hrefused : ((Line.segments bytes).filterMap Line.item?).filterMap Progress.refusal? =
      (Datagram.points bytes).filterMap error? := by
    rw [Datagram.points, List.filterMap_map]
    refine List.filterMap_congr fun item _ => ?_
    rw [Progress.refusal?, Function.comp_apply]
    cases item >>= Point.ofLine <;> rfl
  simp only [outcome, Progress.add, Progress.ending, List.nil_append, Stop.ending, hitems,
    hingested, hrefused, length_filterMap_toOption, length_filterMap_error?, ofDatagram]

/-- A connection that delivers bytes, none of whose lines is longer than the bound, until
    the stream ends gives the sink the points of a datagram of these bytes, refuses the
    same lines for the same reasons, and reports how many there were of both. The stream
    ends in time at least when all of it takes no longer than the idle limit, whatever
    the reads are that it is cut into. -/
theorem serve_of_bounded_lines (settings : Settings) {bytes : List UInt8}
    (hbound : ∀ line ∈ Line.segments bytes, line.length ≤ settings.maxLine) :
    (∀ (peer : Peer) (moment : Nat),
      Course settings.maxLine settings.idle [] 0 0 peer bytes (.closed moment) →
      serve settings peer = ofDatagram bytes moment) ∧
    ∀ (cut : List (Nat × List UInt8)) (last : Nat), cut.flatMap Prod.snd = bytes →
      InTime settings.idle (sendingTime cut last) →
      serve settings (sending cut last) = ofDatagram bytes (sendingTime cut last) := by
  have hserve : ∀ (peer : Peer) (moment : Nat),
      Course settings.maxLine settings.idle [] 0 0 peer bytes (.closed moment) →
      serve settings peer = ofDatagram bytes moment := by
    intro peer moment hcourse
    obtain ⟨delivered, stop, hcourse', hserve⟩ :=
      @exists_course_serveFrom settings.maxLine settings.idle [] 0 0 _
        (LineReader.received_new settings.maxLine) peer
    obtain ⟨rfl, rfl⟩ := hcourse.unique hcourse'
    exact hserve.trans (outcome_of_bounded hbound)
  refine ⟨hserve, fun cut last hbytes htime => hserve _ _ ?_⟩
  have hcourse := @course_sending settings.maxLine settings.idle [] 0 0 cut last le_rfl
    (by rwa [Nat.zero_add, Nat.sub_zero])
  rwa [List.nil_append, Nat.zero_add, hbytes] at hcourse

/-- A stream that is cut before a line feed and inside a line that is not UTF-8. -/
theorem serve_of_bounded_lines_cut :
    let first : List UInt8 := [0x61, 0x20, 0x31, 0x20, 0x31, 0x0D]
    let second : List UInt8 := [0x0A, 0x20, 0x0A, 0x62, 0x0A, 0xFF]
    let third : List UInt8 := [0x7A, 0x0A, 0x7A, 0x20, 0x32, 0x20, 0x32]
    let settings : Settings := { maxLine := 6, idle := some (.ofNanos 10) }
    let bytes := first ++ second ++ third
    let peer := sending [(6, first), (3, second), (0, third)] 1
    (∀ line ∈ Line.segments bytes, line.length ≤ settings.maxLine) ∧
      InTime settings.idle 10 ∧
      serve settings peer = ofDatagram bytes 10 ∧
      (Datagram.points bytes).map Except.isOk = [true, false, false, true] ∧
      (serve settings peer).ending = .returned 10 (.ok ⟨2, 2⟩) := by
  intro first second third settings bytes peer
  have hbound : ∀ line ∈ Line.segments bytes, line.length ≤ settings.maxLine := by decide
  have htime : InTime settings.idle 10 := fun l h => Option.some.inj h ▸ by decide
  obtain ⟨-, hsending⟩ := serve_of_bounded_lines settings hbound
  have hserve : serve settings peer = ofDatagram bytes 10 := hsending _ 1 rfl htime
  have hitems : (Datagram.points bytes).map Except.isOk = [true, false, false, true] := by
    decide +kernel
  have hcount : (Datagram.points bytes).countP Except.isOk = 2 ∧
      (Datagram.points bytes).countP (!·.isOk) = 2 := by decide +kernel
  refine ⟨hbound, htime, hserve, hitems, ?_⟩
  rw [hserve, ofDatagram, hcount.1, hcount.2]

end MetricIntake.Connection.Text
