-- SUMMARY: After a part of a stream has arrived, a reader has yielded the items of the lines that have ended, and owes those of the rest.
import MetricIntake.Proofs.Line.Reader

/-!
# The lines that have ended

A stream that has arrived in part consists of lines that have ended and one that
has not. A reader that is asked until it yields nothing has yielded what the
former yield, whatever pieces the bytes arrived in, and keeps the latter.
-/

namespace MetricIntake

namespace Line

variable {max : Nat} {bytes : List UInt8}

/-- The lines of a part of a stream that a line feed has ended. -/
def ended (bytes : List UInt8) : List (List UInt8) := (segments bytes).dropLast

/-- What the lines that have ended yield. -/
def ofEnded (max : Nat) (bytes : List UInt8) : List (Except DecodeError String) :=
  (ended bytes).filterMap (bounded? max)

/-- The line of a part of a stream that has not ended. -/
def unfinished (bytes : List UInt8) : List UInt8 := (segments bytes).getLastD []

theorem segments_eq_ended_append (bytes : List UInt8) :
    segments bytes = ended bytes ++ [unfinished bytes] := by
  have hne := List.splitOn_ne_nil feed bytes
  rw [unfinished, List.getLastD_eq_getLast?, segments, List.getLast?_eq_some_getLast hne]
  exact (List.dropLast_append_getLast hne).symm

theorem feed_not_mem_unfinished (bytes : List UInt8) : feed ∉ unfinished bytes := by
  have hmem : unfinished bytes ∈ segments bytes := by
    rw [segments_eq_ended_append]
    exact List.mem_append_right _ (List.mem_singleton_self _)
  exact Text.not_mem_of_mem_splitOn hmem

/-- A line that no line feed has ended. -/
theorem ended_of_not_mem {line : List UInt8} (h : feed ∉ line) :
    ended line = [] ∧ unfinished line = line := by
  have hsegments := segments_eq_ended_append line
  rw [segments, List.splitOn_eq_singleton h, ← List.nil_append [line]] at hsegments
  obtain ⟨hended, hline⟩ := List.append_singleton_inj.1 hsegments
  exact ⟨hended.symm, hline.symm⟩

/-- A line that a line feed ends, and what follows. -/
theorem ended_append_feed {line : List UInt8} (h : feed ∉ line) (rest : List UInt8) :
    ended (line ++ feed :: rest) = line :: ended rest ∧
      unfinished (line ++ feed :: rest) = unfinished rest := by
  have hsegments := segments_append_feed h rest
  rw [segments_eq_ended_append, segments_eq_ended_append rest, ← List.cons_append] at hsegments
  exact List.append_singleton_inj.1 hsegments

/-- The last line of a part of a stream goes on with what follows. -/
theorem segments_append_eq (bytes more : List UInt8) :
    segments (bytes ++ more) = ended bytes ++ segments (unfinished bytes ++ more) := by
  obtain ⟨line, hline, hsegments⟩ := Text.exists_splitOn_append feed bytes
  have hlast := hsegments []
  rw [List.append_nil, List.append_nil, List.splitOn_eq_singleton hline] at hlast
  have hline : unfinished bytes = line :=
    (List.append_singleton_inj.1 ((segments_eq_ended_append bytes).symm.trans hlast)).2
  rw [hline]
  exact hsegments more

/-- More bytes end the line that has not ended and others after it. -/
theorem ended_append (bytes more : List UInt8) :
    ended (bytes ++ more) = ended bytes ++ ended (unfinished bytes ++ more) := by
  have hne : segments (unfinished bytes ++ more) ≠ [] := List.splitOn_ne_nil _ _
  rw [ended, segments_append_eq, List.dropLast_append_of_ne_nil hne]
  rfl

theorem unfinished_append (bytes more : List UInt8) :
    unfinished (bytes ++ more) = unfinished (unfinished bytes ++ more) := by
  have hsegments := segments_append_eq bytes more
  rw [segments_eq_ended_append, segments_eq_ended_append (unfinished bytes ++ more),
    ← List.append_assoc] at hsegments
  exact (List.append_singleton_inj.1 hsegments).2

theorem ofEnded_append (max : Nat) (bytes more : List UInt8) :
    ofEnded max (bytes ++ more) = ofEnded max bytes ++ ofEnded max (unfinished bytes ++ more) := by
  rw [ofEnded, ended_append, List.filterMap_append]
  rfl

/-- What a stream yields is what the lines that have ended yield, and what the rest
    yields with what follows. -/
theorem ofStream_append (max : Nat) (bytes more : List UInt8) :
    ofStream max (bytes ++ more) = ofEnded max bytes ++ ofStream max (unfinished bytes ++ more) := by
  rw [ofStream, segments_append_eq, List.filterMap_append, ofEnded, ofStream]

/-- More bytes than the bound without a line feed yield one item. -/
theorem length_ofStream_of_overlong {line : List UInt8} (h : feed ∉ line)
    (hlen : max < line.length) : (ofStream max line).length = 1 := by
  have hstream := ofStream_of_overlong h hlen []
  rw [List.append_nil] at hstream
  rw [hstream, ofOverlongStream, segments, List.splitOn_eq_singleton h]
  rfl

end Line

namespace LineReader

variable {r : LineReader}

/-! ## The reader -/

theorem Consistent.quiet_drain (h : r.Consistent) : r.drain.2.Quiet := by
  fun_induction LineReader.drain r with
  | case1 r r' hr => exact h.quiet_of_next hr
  | case2 r item r' hr hlt items r'' hdrain ih =>
    rw [hdrain] at ih
    exact ih (h.of_next hr).1

/-- A reader that yields nothing at the moment owes one item for more bytes than its
    bound without a line feed. -/
theorem Quiet.length_due_of_overlong (h : r.Quiet) {more : List UInt8} (hmore : Line.feed ∉ more)
    (hlen : r.maxLength < more.length) : (r.due more).length = 1 := by
  have hfeed : Line.feed ∉ r.buffer ++ more := by
    rw [List.mem_append, not_or]
    exact ⟨h.feed_not_mem, hmore⟩
  unfold due
  split
  · rw [Line.ofOverlongStream, Line.segments, List.splitOn_eq_singleton hfeed]
    rfl
  · apply Line.length_ofStream_of_overlong hfeed
    rw [List.length_append]
    omega

/-- A reader after a part of a stream has arrived and all items at hand have been
    taken. -/
structure Received (max : Nat) (bytes : List UInt8) (r : LineReader) : Prop where
  consistent : r.Consistent
  due_eq : ∀ more, Line.ofStream max (bytes ++ more) = Line.ofEnded max bytes ++ r.due more

theorem received_new (max : Nat) : Received max [] { maxLength := max } where
  consistent := consistent_of_searched_eq_zero rfl
  due_eq _ := rfl

variable {max : Nat} {bytes : List UInt8}

/-- The items that are at hand after more bytes have arrived are those of the lines
    that these bytes end. -/
theorem Received.drain_feed (h : Received max bytes r) (chunk : List UInt8) :
    Line.ofEnded max (bytes ++ chunk) =
        Line.ofEnded max bytes ++ (r.feed chunk).drain.1 ∧
      Received max (bytes ++ chunk) (r.feed chunk).drain.2 := by
  have hfed := h.consistent.feed chunk
  have hquiet := hfed.quiet_drain
  have hdue : ∀ more, Line.ofStream max (bytes ++ chunk ++ more) =
      Line.ofEnded max bytes ++ (r.feed chunk).drain.1 ++ (r.feed chunk).drain.2.due more := by
    intro more
    rw [List.append_assoc, h.due_eq, ← due_feed, hfed.due_drain, List.append_assoc]
  -- so many bytes without a line feed make one item of what is left, on both sides
  have hended : Line.ofEnded max (bytes ++ chunk) =
      Line.ofEnded max bytes ++ (r.feed chunk).drain.1 := by
    have hline := Line.feed_not_mem_unfinished (bytes ++ chunk)
    let bound := max + (r.feed chunk).drain.2.maxLength
    let more := List.replicate (bound + 1) Line.carriageReturn
    have hmore : Line.feed ∉ more := by simp [more, Line.feed, Line.carriageReturn]
    have hlen : more.length = bound + 1 := List.length_replicate
    have hsame := (Line.ofStream_append max (bytes ++ chunk) more).symm.trans (hdue more)
    refine List.append_inj_left' hsame ?_
    rw [Line.length_ofStream_of_overlong, hquiet.length_due_of_overlong hmore]
    · omega
    · simpa using ⟨hline, hmore⟩
    · rw [List.length_append]
      omega
  exact ⟨hended, hfed.drain, fun more => by rw [hdue, hended]⟩

/-- What is still at hand when the stream ends is what the line yields that has not
    ended. -/
theorem Received.close (h : Received max bytes r) :
    Line.ofStream max bytes = Line.ofEnded max bytes ++ r.close := by
  have hclose : r.close = r.due [] := by
    rw [h.consistent.due_drain, h.consistent.quiet_drain.due_nil]
    rfl
  rw [hclose, ← h.due_eq, List.append_nil]

/-- The items at hand after more bytes are those of the lines that have begun before and
    in them. -/
theorem Received.drain_feed_eq (h : Received max bytes r) (chunk : List UInt8) :
    (r.feed chunk).drain.1 = Line.ofEnded max (Line.unfinished bytes ++ chunk) := by
  have hended := (h.drain_feed chunk).1
  rw [Line.ofEnded_append] at hended
  exact (List.append_cancel_left hended).symm

theorem Received.close_eq (h : Received max bytes r) :
    r.close = (Line.bounded? max (Line.unfinished bytes)).toList := by
  have hstream : Line.ofStream max bytes =
      Line.ofEnded max bytes ++ (Line.bounded? max (Line.unfinished bytes)).toList := by
    rw [Line.ofStream, Line.segments_eq_ended_append, List.filterMap_append,
      List.filterMap_eq_flatMap_toList (l := [_]), List.flatMap_singleton, Line.ofEnded]
  rw [h.close] at hstream
  exact List.append_cancel_left hstream

end LineReader
end MetricIntake
