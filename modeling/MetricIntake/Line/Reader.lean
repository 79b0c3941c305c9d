-- SUMMARY: Lines of a stream that arrives in pieces: a buffer, what of it has been searched, and the discarding of long lines.
import MetricIntake.Line.Basic

/-!
# Reading lines piece by piece

A reader owns the bytes that have arrived and not yet been used. It looks for a
line feed in the first `maxLength + 1` bytes only, and remembers how many of
them it has searched. A line that does not end within them is too long: its
bytes are dropped as they arrive, and the item that reports it is yielded when
its line feed, or the end of the stream, is seen. So the reader never keeps more
than `maxLength` bytes without yielding.
-/

namespace MetricIntake

/-- A reader of lines and the bytes it holds. -/
structure LineReader where
  maxLength : Nat
  buffer : List UInt8 := []
  /-- How many bytes of the buffer are known to hold no line feed. -/
  searched : Nat := 0
  /-- Inside a line that is too long. -/
  discarding : Bool := false
  deriving DecidableEq, Repr

namespace LineReader

/-- A line, or why it has no text. -/
abbrev Item := Except DecodeError String

/-- Appends bytes that have arrived. -/
def feed (r : LineReader) (bytes : List UInt8) : LineReader :=
  { r with buffer := r.buffer ++ bytes }

/-- Where the line feed stands that ends a line within the bound. -/
def lineEnd? (r : LineReader) : Option Nat :=
  let window := (r.buffer.drop r.searched).take (r.maxLength + 1 - r.searched)
  (window.findIdx? (· == Line.feed)).map (r.searched + ·)

/-- The reader after the first `n` bytes of its buffer. -/
def advance (r : LineReader) (n : Nat) (discarding : Bool) : LineReader :=
  { r with buffer := r.buffer.drop n, searched := 0, discarding }

/-- A line feed is found inside the buffer. -/
theorem lt_length_of_lineEnd? {r : LineReader} {i : Nat} (h : r.lineEnd? = some i) :
    i < r.buffer.length := by
  simp only [lineEnd?, Option.map_eq_some_iff] at h
  obtain ⟨j, hj, rfl⟩ := h
  have := (List.findIdx?_eq_some_iff_getElem.1 hj).1
  simp only [List.length_take, List.length_drop] at this
  omega

/-- The next item among the bytes at hand, if there is one. -/
def next (r : LineReader) : Option Item × LineReader :=
  match h : r.lineEnd? with
  | some i =>
    have := lt_length_of_lineEnd? h
    if r.discarding then
      (some (.error (.lineTooLong r.maxLength)), r.advance (i + 1) false)
    else
      match Line.item? (r.buffer.take i) with
      | some item => (some item, r.advance (i + 1) false)
      | none => next (r.advance (i + 1) false)
  | none =>
    if hd : r.discarding then
      if (r.buffer.drop (r.maxLength + 1)).isEmpty then
        (none, { r with buffer := [], searched := 0 })
      else next (r.advance (r.maxLength + 1) true)
    else if r.maxLength < r.buffer.length then next { r with discarding := true }
    else (none, { r with searched := r.buffer.length })
termination_by (r.buffer.length, if r.discarding then 0 else 1)
decreasing_by
  · simp only [advance, List.length_drop]
    exact Prod.Lex.left _ _ (by omega)
  · rename_i he
    simp only [advance, List.length_drop]
    simp only [List.isEmpty_iff, List.drop_eq_nil_iff, Nat.not_le] at he
    exact Prod.Lex.left _ _ (by omega)
  · simp only [hd]
    exact Prod.Lex.right _ (by decide)

/-- What the bytes yield that no line feed follows, once no more can come. -/
def flush (r : LineReader) : Option Item × LineReader :=
  let closed := { r with buffer := [], searched := 0, discarding := false }
  if r.discarding then (some (.error (.lineTooLong r.maxLength)), closed)
  else (Line.item? r.buffer, closed)

/-- The next item at the end of the stream: what `next` yields, else the line
    that has no line feed. -/
def finish (r : LineReader) : Option Item × LineReader :=
  match r.next with
  | (some item, r) => (some item, r)
  | (none, r) => r.flush

/-! ## All items at hand -/

/-- An item uses up bytes. -/
theorem length_buffer_lt_of_next {r r' : LineReader} {item : Item}
    (h : r.next = (some item, r')) : r'.buffer.length < r.buffer.length := by
  fun_induction next r with
  | case1 r i hi hlt hd =>
    obtain ⟨_, rfl⟩ := Prod.mk.inj h
    simp only [advance, List.length_drop]
    omega
  | case2 r i hi hlt hd item' hitem =>
    obtain ⟨_, rfl⟩ := Prod.mk.inj h
    simp only [advance, List.length_drop]
    omega
  | case3 r i hi hlt hd hitem ih =>
    have := ih h
    simp only [advance, List.length_drop] at this
    omega
  | case4 => simp at h
  | case5 r hi hd he ih =>
    have := ih h
    simp only [advance, List.length_drop] at this
    omega
  | case6 r hi hd hlt ih => exact ih h
  | case7 => simp at h

/-- All items among the bytes at hand, in order. -/
def drain (r : LineReader) : List Item × LineReader :=
  match h : r.next with
  | (none, r') => ([], r')
  | (some item, r') =>
    have := length_buffer_lt_of_next h
    let (items, r'') := drain r'
    (item :: items, r'')
termination_by r.buffer.length

/-- All items that remain at the end of the stream. -/
def close (r : LineReader) : List Item :=
  let (items, r) := r.drain
  items ++ r.flush.1.toList

end LineReader
end MetricIntake
