-- SUMMARY: However the bytes of a stream arrive and however often a reader is asked, it yields the items of the whole stream.
import MetricIntake.Line.Reader
import MetricIntake.Proofs.Line.Stream

/-!
# Lines in pieces and lines at once

A reader of lines resumes its search, looks at a window only, and drops the
bytes of a line that is too long as they come. None of this shows: `due` says
what a reader has still to yield in terms of the whole stream, every operation
of the reader keeps it up to the items that it hands out, and a new reader owes
exactly `Line.ofStream`.
-/

namespace MetricIntake

namespace LineReader

variable {r r' : LineReader}

/-! ## States -/

/-- The bytes that count as searched are there and hold no line feed. -/
structure Consistent (r : LineReader) : Prop where
  searched_le : r.searched ≤ r.buffer.length
  feed_not_mem : Line.feed ∉ r.buffer.take r.searched

/-- Nothing can be yielded before more bytes arrive. -/
structure Quiet (r : LineReader) : Prop where
  feed_not_mem : Line.feed ∉ r.buffer
  length_le : r.buffer.length ≤ r.maxLength
  buffer_eq_nil : r.discarding = true → r.buffer = []

/-- What a reader has still to yield if `more` arrives and then the stream
    ends. -/
def due (r : LineReader) (more : List UInt8) : List Item :=
  if r.discarding then Line.ofOverlongStream r.maxLength (r.buffer ++ more)
  else Line.ofStream r.maxLength (r.buffer ++ more)

theorem consistent_of_searched_eq_zero (h : r.searched = 0) : r.Consistent where
  searched_le := by omega
  feed_not_mem := by simp [h]

theorem consistent_advance (n : Nat) (discarding : Bool) : (r.advance n discarding).Consistent :=
  consistent_of_searched_eq_zero rfl

theorem Consistent.feed (h : r.Consistent) (bytes : List UInt8) : (r.feed bytes).Consistent where
  searched_le := by
    have := h.searched_le
    simp only [LineReader.feed, List.length_append]
    omega
  feed_not_mem := by
    simp only [LineReader.feed, List.take_append_of_le_length h.searched_le]
    exact h.feed_not_mem

theorem due_feed (r : LineReader) (bytes more : List UInt8) :
    (r.feed bytes).due more = r.due (bytes ++ more) := by
  simp [due, feed]

/-! ## The search -/

/-- A line feed that the search finds is the first one, and within the bound. -/
theorem Consistent.lineEnd?_eq_some {i : Nat} (h : r.Consistent) (hi : r.lineEnd? = some i) :
    i ≤ r.maxLength ∧ Line.feed ∉ r.buffer.take i ∧
      r.buffer = r.buffer.take i ++ Line.feed :: r.buffer.drop (i + 1) := by
  simp only [lineEnd?, Option.map_eq_some_iff] at hi
  obtain ⟨j, hj, rfl⟩ := hi
  obtain ⟨hlt, hfeed, hbefore⟩ := List.findIdx?_eq_some_iff_getElem.1 hj
  simp only [List.length_take, List.length_drop, List.getElem_take, List.getElem_drop,
    beq_iff_eq] at hlt hfeed hbefore
  refine ⟨by omega, ?_, ?_⟩
  · rw [List.take_add, List.mem_append, not_or]
    refine ⟨h.feed_not_mem, fun hmem => ?_⟩
    obtain ⟨k, hk, hget⟩ := List.mem_take_iff_getElem.1 hmem
    rw [List.getElem_drop] at hget
    exact hbefore k (by omega) hget
  · have hdrop := List.drop_eq_getElem_cons (l := r.buffer) (i := r.searched + j) (by omega)
    rw [hfeed] at hdrop
    rw [← hdrop, List.take_append_drop]

/-- A search that finds nothing has seen the whole window. -/
theorem Consistent.lineEnd?_eq_none (h : r.Consistent) (hn : r.lineEnd? = none) :
    Line.feed ∉ r.buffer.take (r.maxLength + 1) := by
  simp only [lineEnd?, Option.map_eq_none_iff, List.findIdx?_eq_none_iff, beq_eq_false_iff_ne] at hn
  intro hmem
  by_cases hle : r.searched ≤ r.maxLength + 1
  · rw [← Nat.add_sub_cancel' hle, List.take_add, List.mem_append] at hmem
    rcases hmem with hmem | hmem
    · exact h.feed_not_mem hmem
    · exact hn _ hmem rfl
  · exact h.feed_not_mem (List.mem_of_mem_take (i := r.maxLength + 1) (by
      rwa [List.take_take, Nat.min_eq_left (by omega)]))

/-! ## One call -/

/-- Past a line feed, the rest of the buffer is a stream of its own. -/
theorem Consistent.due_advance_feed {i : Nat} (h : r.Consistent) (hi : r.lineEnd? = some i)
    (more : List UInt8) :
    r.due more =
      (if r.discarding then [.error (.lineTooLong r.maxLength)]
        else (Line.item? (r.buffer.take i)).toList) ++ (r.advance (i + 1) false).due more := by
  obtain ⟨hle, hmem, hbuffer⟩ := h.lineEnd?_eq_some hi
  have hlen : (r.buffer.take i).length ≤ r.maxLength := by
    rw [List.length_take]
    omega
  have hsplit : r.buffer ++ more =
      r.buffer.take i ++ Line.feed :: (r.buffer.drop (i + 1) ++ more) := by
    rw [← List.cons_append, ← List.append_assoc, ← hbuffer]
  unfold due
  rw [hsplit]
  cases r.discarding with
  | true => exact Line.ofOverlongStream_append_feed hmem _
  | false => exact Line.ofStream_append_feed hmem hlen _

/-- Inside a line that is too long, a window without a line feed can go. -/
theorem Consistent.due_advance_window (h : r.Consistent) (hn : r.lineEnd? = none)
    (hd : r.discarding = true) (more : List UInt8) :
    r.due more = (r.advance (r.maxLength + 1) true).due more := by
  have hsplit : r.buffer ++ more =
      r.buffer.take (r.maxLength + 1) ++ (r.buffer.drop (r.maxLength + 1) ++ more) := by
    rw [← List.append_assoc, List.take_append_drop]
  simp only [due, hd, advance, if_true]
  rw [hsplit, Line.ofOverlongStream_append (h.lineEnd?_eq_none hn)]

/-- A full window without a line feed begins a line that is too long. -/
theorem Consistent.due_discarding (h : r.Consistent) (hn : r.lineEnd? = none)
    (hd : r.discarding = false) (hlt : r.maxLength < r.buffer.length) (more : List UInt8) :
    r.due more = { r with discarding := true }.due more := by
  have hlen : r.maxLength < (r.buffer.take (r.maxLength + 1)).length := by
    rw [List.length_take]
    omega
  have hsplit : r.buffer ++ more =
      r.buffer.take (r.maxLength + 1) ++ (r.buffer.drop (r.maxLength + 1) ++ more) := by
    rw [← List.append_assoc, List.take_append_drop]
  simp only [due, hd, if_true, Bool.false_eq_true, if_false]
  rw [hsplit]
  exact Line.ofStream_of_overlong (h.lineEnd?_eq_none hn) hlen _

theorem Consistent.next (h : r.Consistent) : r.next.2.Consistent := by
  fun_induction LineReader.next r with
  | case1 r i hi hlt hd => exact consistent_advance (i + 1) false
  | case2 r i hi hlt hd item hitem => exact consistent_advance (i + 1) false
  | case3 r i hi hlt hd hitem ih => exact ih (consistent_advance (i + 1) false)
  | case4 r hi hd he => exact consistent_of_searched_eq_zero rfl
  | case5 r hi hd he ih => exact ih (consistent_advance (r.maxLength + 1) true)
  | case6 r hi hd hlt ih => exact ih ⟨h.searched_le, h.feed_not_mem⟩
  | case7 r hi hd hlt =>
    have hmem := h.lineEnd?_eq_none hi
    rw [List.take_of_length_le (by omega)] at hmem
    exact ⟨Nat.le_refl _, by rwa [List.take_length]⟩

/-- A call takes the item that it yields off what is due, and nothing else. -/
theorem Consistent.due_next (h : r.Consistent) (more : List UInt8) :
    r.due more = r.next.1.toList ++ r.next.2.due more := by
  fun_induction LineReader.next r with
  | case1 r i hi hlt hd =>
    rw [h.due_advance_feed hi more, if_pos hd]
    rfl
  | case2 r i hi hlt hd item hitem =>
    rw [h.due_advance_feed hi more, if_neg hd, hitem]
  | case3 r i hi hlt hd hitem ih =>
    rw [h.due_advance_feed hi more, if_neg hd, hitem]
    exact ih (consistent_advance (i + 1) false)
  | case4 r hi hd he =>
    rw [h.due_advance_window hi hd more]
    simp [due, advance, hd, List.isEmpty_iff.1 he]
  | case5 r hi hd he ih =>
    rw [h.due_advance_window hi hd more]
    exact ih (consistent_advance (r.maxLength + 1) true)
  | case6 r hi hd hlt ih =>
    rw [h.due_discarding hi (Bool.eq_false_iff.2 hd) hlt more]
    exact ih ⟨h.searched_le, h.feed_not_mem⟩
  | case7 r hi hd hlt => rfl

/-- A call that yields nothing has used up all that was there. -/
theorem Consistent.quiet_next (h : r.Consistent) (hn : r.next.1 = none) : r.next.2.Quiet := by
  fun_induction LineReader.next r with
  | case1 | case2 => cases hn
  | case3 r i hi hlt hd hitem ih => exact ih (consistent_advance (i + 1) false) hn
  | case4 r hi hd he => exact ⟨List.not_mem_nil, Nat.zero_le _, fun _ => rfl⟩
  | case5 r hi hd he ih => exact ih (consistent_advance (r.maxLength + 1) true) hn
  | case6 r hi hd hlt ih => exact ih ⟨h.searched_le, h.feed_not_mem⟩ hn
  | case7 r hi hd hlt =>
    have hmem := h.lineEnd?_eq_none hi
    rw [List.take_of_length_le (by omega)] at hmem
    exact ⟨hmem, by simpa using hlt, fun hd' => absurd hd' hd⟩

/-- What a reader owes at the end of the stream when nothing more can be read. -/
theorem Quiet.due_nil (h : r.Quiet) : r.due [] = r.flush.1.toList := by
  unfold due flush
  cases hd : r.discarding with
  | true =>
    rw [h.buffer_eq_nil hd]
    rfl
  | false =>
    rw [List.append_nil]
    exact Line.ofStream_of_not_mem h.feed_not_mem h.length_le

/-! ## Calls until nothing is yielded -/

theorem Consistent.of_next {o : Option Item} (h : r.Consistent) (hr : r.next = (o, r')) :
    r'.Consistent ∧ ∀ more, r.due more = o.toList ++ r'.due more := by
  have hc := h.next
  have hdue := h.due_next
  rw [hr] at hc hdue
  exact ⟨hc, hdue⟩

theorem Consistent.quiet_of_next (h : r.Consistent) (hr : r.next = (none, r')) : r'.Quiet := by
  have hquiet := h.quiet_next
  rw [hr] at hquiet
  exact hquiet rfl

theorem Consistent.drain (h : r.Consistent) : r.drain.2.Consistent := by
  fun_induction LineReader.drain r with
  | case1 r r' hr => exact (h.of_next hr).1
  | case2 r item r' hr hlt items r'' hdrain ih =>
    rw [hdrain] at ih
    exact ih (h.of_next hr).1

theorem Consistent.due_drain (h : r.Consistent) (more : List UInt8) :
    r.due more = r.drain.1 ++ r.drain.2.due more := by
  fun_induction LineReader.drain r with
  | case1 r r' hr => exact (h.of_next hr).2 more
  | case2 r item r' hr hlt items r'' hdrain ih =>
    obtain ⟨h', hdue⟩ := h.of_next hr
    have ih := ih h'
    rw [hdrain] at ih
    rw [hdue more, ih]
    rfl

theorem finish_of_next_some {item : Item} (hr : r.next = (some item, r')) :
    r.finish = (some item, r') := by
  rw [finish, hr]

theorem finish_of_next_none (hr : r.next = (none, r')) : r.finish = r'.flush := by
  rw [finish, hr]

/-- Nothing is left after the last line has been flushed. -/
theorem flush_snd (r : LineReader) : r.flush.2 = { maxLength := r.maxLength } := by
  unfold flush
  split <;> rfl

/-- A bound on the number of items that a reader can still yield. -/
def weight (r : LineReader) : Nat := 2 * r.buffer.length + if r.discarding then 1 else 0

theorem finish_of_weight_eq_zero (h : r.weight = 0) : r.finish.1 = none := by
  simp only [weight] at h
  have hb : r.buffer = [] := List.eq_nil_of_length_eq_zero (by omega)
  have hd : r.discarding = false := by
    cases hd : r.discarding with
    | false => rfl
    | true => simp [hd] at h
  have hn : r.lineEnd? = none := by simp [lineEnd?, hb]
  have hr : r.next = (none, { r with searched := 0 }) := by
    unfold next
    split
    · rename_i i hi
      rw [hn] at hi
      cases hi
    · simp [hd, hb]
  rw [finish_of_next_none hr]
  simp [flush, hd, hb, Line.item?, Line.stripReturn, Line.isBlank]

/-- Every item at the end of the stream uses up something. -/
theorem weight_lt_of_finish {item : Item} (h : r.finish = (some item, r')) :
    r'.weight < r.weight := by
  cases hr : r.next with
  | mk o r₁ =>
    cases o with
    | some item' =>
      rw [finish_of_next_some hr] at h
      obtain ⟨-, rfl⟩ := Prod.mk.inj h
      have := length_buffer_lt_of_next hr
      simp only [weight]
      split <;> split <;> omega
    | none =>
      have hw : r.weight ≠ 0 := by
        intro hw
        have hnone := finish_of_weight_eq_zero hw
        rw [h] at hnone
        cases hnone
      rw [finish_of_next_none hr] at h
      have hr' : r' = { maxLength := r₁.maxLength } := by rw [← flush_snd, h]
      rw [hr']
      exact Nat.pos_of_ne_zero hw

/-- All items that calls at the end of the stream yield, until one yields
    nothing. -/
def finishAll (r : LineReader) : List Item :=
  match h : r.finish with
  | (none, _) => []
  | (some item, r') =>
    have := weight_lt_of_finish h
    item :: finishAll r'
termination_by r.weight

theorem due_nil_new (max : Nat) : due { maxLength := max } [] = [] :=
  Line.ofStream_of_not_mem List.not_mem_nil (Nat.zero_le _)

/-- A call at the end of the stream takes the item that it yields off what is
    due, and yields nothing only if nothing is. -/
theorem Consistent.of_finish {o : Option Item} (h : r.Consistent) (hf : r.finish = (o, r')) :
    r'.Consistent ∧ r.due [] = o.toList ++ r'.due [] ∧ (o = none → r'.due [] = []) := by
  cases hr : r.next with
  | mk o₁ r₁ =>
    obtain ⟨hc, hdue⟩ := h.of_next hr
    cases o₁ with
    | some item =>
      rw [finish_of_next_some hr] at hf
      obtain ⟨rfl, rfl⟩ := Prod.mk.inj hf
      exact ⟨hc, hdue [], nofun⟩
    | none =>
      have hquiet := h.quiet_of_next hr
      rw [finish_of_next_none hr] at hf
      have hr' : r' = { maxLength := r₁.maxLength } := by rw [← flush_snd, hf]
      subst hr'
      refine ⟨consistent_of_searched_eq_zero rfl, ?_, fun _ => due_nil_new _⟩
      rw [hdue, hquiet.due_nil, hf, due_nil_new, List.append_nil]
      rfl

/-- The calls at the end of the stream yield exactly what is due. -/
theorem Consistent.finishAll_eq (h : r.Consistent) : r.finishAll = r.due [] := by
  fun_induction finishAll r with
  | case1 r r' hf =>
    obtain ⟨-, hdue, hnil⟩ := h.of_finish hf
    rw [hdue, hnil rfl]
    rfl
  | case2 r item r' hf hlt ih =>
    obtain ⟨h', hdue, -⟩ := h.of_finish hf
    rw [hdue, ih h']
    rfl

/-! ## Whole runs -/

/-- What may happen to a reader before the stream ends. -/
inductive Event where
  /-- Bytes arrive. -/
  | fed (bytes : List UInt8)
  /-- The next item is asked for. -/
  | asked
  deriving DecidableEq, Repr

/-- The bytes that arrive in a run. -/
def Event.bytes : List Event → List UInt8
  | [] => []
  | .fed bytes :: events => bytes ++ Event.bytes events
  | .asked :: events => Event.bytes events

/-- The items that a reader yields in a run. -/
def run (r : LineReader) : List Event → List Item × LineReader
  | [] => ([], r)
  | .fed bytes :: events => (r.feed bytes).run events
  | .asked :: events =>
    let (item, r) := r.next
    let (items, r) := r.run events
    (item.toList ++ items, r)

/-- All items of a stream: those of a run, those still at hand after it, and
    those of the calls at the end of the stream. -/
def transcript (max : Nat) (events : List Event) : List Item :=
  let (items, r) := run { maxLength := max } events
  let (rest, r) := r.drain
  items ++ rest ++ r.finishAll

theorem Consistent.run (h : r.Consistent) (events : List Event) :
    (r.run events).2.Consistent := by
  induction events generalizing r with
  | nil => exact h
  | cons event events ih =>
    cases event with
    | fed bytes => exact ih (h.feed bytes)
    | asked => exact ih h.next

/-- A run takes the items that it yields off what is due for its bytes. -/
theorem Consistent.due_run (h : r.Consistent) (events : List Event) (more : List UInt8) :
    r.due (Event.bytes events ++ more) = (r.run events).1 ++ (r.run events).2.due more := by
  induction events generalizing r with
  | nil => rfl
  | cons event events ih =>
    cases event with
    | fed bytes =>
      rw [Event.bytes, List.append_assoc, ← due_feed, ih (h.feed bytes)]
      rfl
    | asked =>
      rw [Event.bytes, h.due_next, ih h.next, ← List.append_assoc]
      rfl

/-- A reader that receives a stream in pieces yields the items of the whole stream. -/
theorem transcript_eq_ofStream (max : Nat) (events : List Event) :
    transcript max events = Line.ofStream max (Event.bytes events) := by
  have hnew : Consistent { maxLength := max } := consistent_of_searched_eq_zero rfl
  have hrun := hnew.run events
  calc transcript max events
      = (LineReader.run { maxLength := max } events).1 ++
          ((LineReader.run { maxLength := max } events).2.drain.1 ++
            (LineReader.run { maxLength := max } events).2.drain.2.finishAll) :=
        List.append_assoc ..
    _ = (LineReader.run { maxLength := max } events).1 ++
          (LineReader.run { maxLength := max } events).2.due [] := by
        rw [hrun.drain.finishAll_eq, ← hrun.due_drain]
    _ = due { maxLength := max } (Event.bytes events ++ []) := (hnew.due_run events []).symm
    _ = Line.ofStream max (Event.bytes events) := by
        rw [List.append_nil]
        rfl

/-- Whatever pieces the bytes of a stream arrive in, and however often a reader is
    asked in between, it yields what the lines of the stream yield, in order. -/
theorem transcript_eq_iff {max : Nat} {events : List Event} {items : List Item} :
    transcript max events = items ↔
      ∃ yields, List.Forall₂ (Line.Yields max) ((Event.bytes events).splitOn 0x0A) yields ∧
        yields.flatten = items := by
  rw [transcript_eq_ofStream, Line.ofStream_eq_iff]
  rfl

end LineReader
end MetricIntake
