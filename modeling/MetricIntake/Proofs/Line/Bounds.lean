-- SUMMARY: What a reader of lines holds between two calls, and that every call takes slices in range only and ends.
import Mathlib
import MetricIntake.Proofs.Checked
import MetricIntake.Proofs.Line.Reader

/-!
# The bounds of a reader

The search of a reader is total as it is written: a range that leaves the buffer would be
cut to it. `turn?` is one turn of the same search with all its sums and slices checked, and
a loop of such turns is equal to `next` (`Fits.next?_eq`), so none of them fails and the loop
ends.

What makes this true between any two calls is `Lawful`: the searched bytes are there, hold no
line feed, and are no more than a line may have.
-/

namespace MetricIntake.LineReader

open MetricIntake.Checked

variable {max : Nat} {r : LineReader}

-- ---------------------------------------------------------------------------
-- Turns of the search
-- ---------------------------------------------------------------------------

/-- The offset at which the search ends: a line feed further on would end a line that is too
    long. -/
def reach (r : LineReader) : Nat :=
  min r.buffer.length (saturatingAdd UInt64.size r.maxLength 1)

/-- One turn of the search for an item. It goes on past a blank line, past a full window of a
    line that is too long, and where it finds that a line is too long. -/
def turn (r : LineReader) : Turn LineReader (Option Item × LineReader) :=
  match r.lineEnd? with
  | some i =>
    if r.discarding then
      .leaves (some (.error (.lineTooLong r.maxLength)), r.advance (i + 1) false)
    else
      match Line.item? (r.buffer.take i) with
      | some item => .leaves (some item, r.advance (i + 1) false)
      | none => .goesOn (r.advance (i + 1) false)
  | none =>
    if r.discarding then
      if (r.buffer.drop (r.maxLength + 1)).isEmpty then
        .leaves (none, { r with buffer := [], searched := 0 })
      else .goesOn (r.advance (r.maxLength + 1) true)
    else if r.maxLength < r.buffer.length then .goesOn { r with discarding := true }
    else .leaves (none, { r with searched := r.buffer.length })

/-- The same turn with all its sums and slices checked. -/
def turn? (r : LineReader) : Option (Turn LineReader (Option Item × LineReader)) := do
  let window ← slice? r.buffer r.searched r.reach
  match r.discarding, window.findIdx? (· == Line.feed) with
  | true, some i =>
    let used ← add? UInt64.size (← add? UInt64.size r.searched i) 1
    let rest ← slice? r.buffer used r.buffer.length
    return .leaves (some (.error (.lineTooLong r.maxLength)),
      { r with buffer := rest, searched := 0, discarding := false })
  | true, none =>
    let rest ← slice? r.buffer r.reach r.buffer.length
    let r := { r with buffer := rest, searched := 0 }
    return if rest.isEmpty then .leaves (none, r) else .goesOn r
  | false, some i =>
    let stop ← add? UInt64.size r.searched i
    let used ← add? UInt64.size stop 1
    let front ← slice? r.buffer 0 used
    let rest ← slice? r.buffer used r.buffer.length
    let line ← slice? front 0 stop
    let r := { r with buffer := rest, searched := 0 }
    return match Line.item? line with
      | some item => .leaves (some item, r)
      | none => .goesOn r
  | false, none =>
    return if r.maxLength < r.buffer.length then .goesOn { r with discarding := true }
      else .leaves (none, { r with searched := r.reach })

/-- The search for the next item, turn by turn. -/
def next? (r : LineReader) : Option (Option Item × LineReader) :=
  loop turn? (r.buffer.length + 2) r

/-- The search at the end of the stream, turn by turn, and what it leaves. -/
def finish? (r : LineReader) : Option (Option Item × LineReader) := do
  match ← r.next? with
  | (some item, r) => return (some item, r)
  | (none, r) =>
    if r.discarding then
      return (some (.error (.lineTooLong r.maxLength)),
        { r with buffer := [], searched := 0, discarding := false })
    else
      let line ← slice? r.buffer 0 r.buffer.length
      let rest ← slice? r.buffer r.buffer.length r.buffer.length
      return (Line.item? line, { r with buffer := rest, searched := 0 })

/-- What the turns of one call make smaller. -/
def turnsLeft (r : LineReader) : Nat :=
  r.buffer.length + if r.discarding then 0 else 1

-- ---------------------------------------------------------------------------
-- Between two calls
-- ---------------------------------------------------------------------------

/-- What holds of a reader for lines of at most `max` bytes before and after every call. -/
structure Lawful (max : Nat) (r : LineReader) : Prop extends r.Consistent where
  maxLength_eq : r.maxLength = max
  searched_le_max : r.searched ≤ max

theorem lawful_of_searched_eq_zero (hmax : r.maxLength = max) (h : r.searched = 0) :
    r.Lawful max where
  toConsistent := consistent_of_searched_eq_zero h
  maxLength_eq := hmax
  searched_le_max := h ▸ Nat.zero_le max

theorem Lawful.advance (h : r.Lawful max) (n : Nat) (discarding : Bool) :
    (r.advance n discarding).Lawful max :=
  lawful_of_searched_eq_zero h.maxLength_eq rfl

theorem Lawful.discarding (h : r.Lawful max) : { r with discarding := true }.Lawful max :=
  ⟨⟨h.searched_le, h.feed_not_mem⟩, h.maxLength_eq, h.searched_le_max⟩

theorem Lawful.feed (h : r.Lawful max) (bytes : List UInt8) : (r.feed bytes).Lawful max :=
  ⟨h.toConsistent.feed bytes, h.maxLength_eq, h.searched_le_max⟩

theorem Lawful.next (h : r.Lawful max) : r.next.2.Lawful max := by
  have hbounds : r.next.2.maxLength = max ∧ r.next.2.searched ≤ max := by
    obtain ⟨-, hmax, hsearched⟩ := h
    fun_induction LineReader.next r with
    | case1 | case2 | case4 => exact ⟨hmax, Nat.zero_le max⟩
    | case3 r i hi hlt hd hitem ih => exact ih hmax (Nat.zero_le max)
    | case5 r hi hd he ih => exact ih hmax (Nat.zero_le max)
    | case6 r hi hd hlt ih => exact ih hmax hsearched
    | case7 r hi hd hlt => exact ⟨hmax, hmax ▸ Nat.not_lt.1 hlt⟩
  exact ⟨h.toConsistent.next, hbounds.1, hbounds.2⟩

/-- A call at the end of the stream is a call that yields an item, or leaves a new reader. -/
theorem finish_cases (r : LineReader) :
    (r.finish = r.next ∧ r.finish.1 ≠ none) ∨ r.finish.2 = { maxLength := r.next.2.maxLength } := by
  cases hr : r.next with
  | mk item r' =>
    cases item with
    | some item =>
      rw [finish_of_next_some hr]
      exact .inl ⟨rfl, nofun⟩
    | none =>
      rw [finish_of_next_none hr, flush_snd]
      exact .inr rfl

theorem Lawful.finish (h : r.Lawful max) : r.finish.2.Lawful max := by
  rcases finish_cases r with ⟨hsame, -⟩ | hnew
  · rw [hsame]
    exact h.next
  · rw [hnew]
    exact lawful_of_searched_eq_zero h.next.maxLength_eq rfl

theorem Lawful.finish_snd (h : r.Lawful max) (hn : r.finish.1 = none) :
    r.finish.2 = { maxLength := max } := by
  rcases finish_cases r with ⟨-, hsome⟩ | hnew
  · exact absurd hn hsome
  · rw [hnew, h.next.maxLength_eq]

-- ---------------------------------------------------------------------------
-- Turns and calls
-- ---------------------------------------------------------------------------

/-- A call goes on from turn to turn. -/
theorem next_eq (r : LineReader) : r.next = r.turn.result LineReader.next := by
  rw [LineReader.next, turn]
  split
  · rename_i i hi
    simp only [hi]
    split
    · rfl
    · cases Line.item? (r.buffer.take i) <;> rfl
  · rename_i hi
    simp only [hi]
    split <;> split <;> rfl

theorem turnsLeft_advance {n : Nat} (hn : 0 < n) (hlength : 0 < r.buffer.length) :
    (r.advance n r.discarding).turnsLeft < r.turnsLeft := by
  have hless : (r.advance n r.discarding).buffer.length < r.buffer.length := by
    rw [LineReader.advance, List.length_drop]
    omega
  exact Nat.add_lt_add_right hless _

/-- What holds of a reader at every turn: it is lawful, and the length of its buffer is a
    word. -/
structure Fits (max : Nat) (r : LineReader) : Prop extends r.Lawful max where
  length_lt : r.buffer.length < UInt64.size

theorem Fits.advance (h : r.Fits max) (n : Nat) (discarding : Bool) :
    (r.advance n discarding).Fits max where
  toLawful := h.toLawful.advance n discarding
  length_lt := Nat.lt_of_le_of_lt (List.drop_sublist n r.buffer).length_le h.length_lt

/-- A turn that goes on leaves a reader that is closer to the end of the call. -/
theorem Fits.turn (h : r.Fits max) : r.turn.Keeps (Fits max) (fun _ => True) turnsLeft r := by
  unfold LineReader.turn
  split
  · rename_i i hi
    have hlt := lt_length_of_lineEnd? hi
    split
    · exact .leaves trivial
    · rename_i hd
      split
      · exact .leaves trivial
      · rw [← Bool.eq_false_iff.2 hd]
        exact .goesOn (h.advance _ _) (turnsLeft_advance (Nat.succ_pos i) (by omega))
  · split
    · rename_i hd
      split
      · exact .leaves trivial
      · rename_i hleft
        rw [List.isEmpty_iff, List.drop_eq_nil_iff] at hleft
        rw [← hd]
        exact .goesOn (h.advance _ _) (turnsLeft_advance (Nat.succ_pos _) (by omega))
    · rename_i hd
      split
      · refine .goesOn ⟨h.discarding, h.length_lt⟩ ?_
        simp [turnsLeft, hd]
      · exact .leaves trivial

/-- No buffer is so long that it makes a difference where sums of words stay. -/
theorem Fits.reach_eq (h : r.Fits max) : r.reach = min r.buffer.length (r.maxLength + 1) := by
  have hword := h.length_lt
  simp only [reach, saturatingAdd]
  omega

/-- The search looks at the bytes of its window that have not been searched. -/
theorem Fits.slice?_window (h : r.Fits max) :
    slice? r.buffer r.searched r.reach =
      some ((r.buffer.drop r.searched).take (r.maxLength + 1 - r.searched)) := by
  have hle := h.searched_le
  have hmax : r.searched ≤ r.maxLength := h.maxLength_eq ▸ h.searched_le_max
  rw [h.reach_eq, slice?_of_le (by omega) (by omega), Option.some.injEq,
    List.take_eq_take_iff, List.length_drop]
  omega

/-- No sum and no slice of a turn fails. -/
theorem Fits.turn?_eq (h : r.Fits max) : r.turn? = some r.turn := by
  have hword := h.length_lt
  have hwindow := h.slice?_window
  cases hi : r.lineEnd? with
  | some i =>
    have hlt := lt_length_of_lineEnd? hi
    obtain ⟨j, hj, rfl⟩ := Option.map_eq_some_iff.1 hi
    have hfeed : add? UInt64.size r.searched j = some (r.searched + j) := add?_of_lt (by omega)
    have hused : add? UInt64.size (r.searched + j) 1 = some (r.searched + j + 1) :=
      add?_of_lt (by omega)
    have hrest := slice?_back (Nat.succ_le_of_lt hlt)
    cases hd : r.discarding with
    | true =>
      simp [turn?, LineReader.turn, hwindow, hi, hd, hj, hfeed, hused, hrest, LineReader.advance]
    | false =>
      have hfront := slice?_front (Nat.succ_le_of_lt hlt)
      have hline : slice? (r.buffer.take (r.searched + j + 1)) 0 (r.searched + j) =
          some (r.buffer.take (r.searched + j)) := by
        rw [slice?_front (by rw [List.length_take]; omega), List.take_take,
          Nat.min_eq_left (by omega)]
      simp [turn?, LineReader.turn, hwindow, hi, hd, hj, hfeed, hused, hfront, hrest, hline,
        LineReader.advance]
  | none =>
    have hj := Option.map_eq_none_iff.1 hi
    have hreach := h.reach_eq
    cases hd : r.discarding with
    | true =>
      have hdrop : r.buffer.drop r.reach = r.buffer.drop (r.maxLength + 1) := by
        rw [hreach, List.drop_eq_drop_iff]
        omega
      have hrest := slice?_back (show r.reach ≤ r.buffer.length by omega)
      rw [hdrop] at hrest
      cases hleft : r.buffer.drop (r.maxLength + 1) with
      | nil => simp [turn?, LineReader.turn, hwindow, hi, hd, hj, hrest, hleft]
      | cons b left =>
        simp [turn?, LineReader.turn, hwindow, hi, hd, hj, hrest, hleft, LineReader.advance]
    | false =>
      by_cases hlong : r.maxLength < r.buffer.length
      · simp [turn?, LineReader.turn, hwindow, hi, hd, hj, hlong]
      · have hall : r.reach = r.buffer.length := by omega
        rw [hall] at hwindow
        simp [turn?, LineReader.turn, hwindow, hi, hd, hj, hlong, hall]

/-- Searched bytes that are not there make a slice that is out of range. -/
example : (turn? { maxLength := 8, buffer := [0x61], searched := 2 }).isNone := by decide

/-- The search is the call: none of its turns fails, and it ends. -/
theorem Fits.next?_eq (h : r.Fits max) : r.next? = some r.next := by
  have hturns : r.turnsLeft < r.buffer.length + 2 := by
    unfold turnsLeft
    split <;> omega
  exact (loop_eq next_eq (fun _ => turn?_eq) (fun _ => Fits.turn) h hturns).1

theorem Fits.finish?_eq (h : r.Fits max) : r.finish? = some r.finish := by
  cases hr : r.next with
  | mk item r' =>
    cases item with
    | some item => simp [finish?, h.next?_eq, finish_of_next_some hr, hr]
    | none =>
      have hline := slice?_front (Nat.le_refl r'.buffer.length)
      have hrest := slice?_back (Nat.le_refl r'.buffer.length)
      cases hd : r'.discarding <;>
        simp [finish?, h.next?_eq, finish_of_next_none hr, hr, flush, hd, hline, hrest]

-- ---------------------------------------------------------------------------
-- Runs
-- ---------------------------------------------------------------------------

/-- What is done to a reader: bytes arrive, an item is asked for, or an item is asked for at
    the end of the stream, also if more arrives after it. -/
inductive Operation where
  | feed (bytes : List UInt8)
  | next
  | finish
  deriving DecidableEq, Repr

/-- The reader after an operation. -/
def perform (r : LineReader) : Operation → LineReader
  | .feed bytes => r.feed bytes
  | .next => r.next.2
  | .finish => r.finish.2

theorem Lawful.perform (h : r.Lawful max) (operation : Operation) :
    (r.perform operation).Lawful max := by
  cases operation with
  | feed bytes => exact h.feed bytes
  | next => exact h.next
  | finish => exact h.finish

theorem Lawful.foldl_perform (h : r.Lawful max) (operations : List Operation) :
    (operations.foldl LineReader.perform r).Lawful max := by
  induction operations generalizing r with
  | nil => exact h
  | cons operation operations ih => exact ih (h.perform operation)

/-- After any operations on a new reader the searched bytes lie within its window and hold no
    line feed. So a call, in the middle of the stream or at its end, takes only slices in range
    and ends, within two turns more than there are bytes. A call that yields nothing leaves no
    line feed and no more bytes than a line may have, none of a line that is too long, and none
    at all at the end of the stream. -/
theorem bounds_of_operations (max : UInt64) (operations : List Operation) :
    let r := operations.foldl perform { maxLength := max.toNat }
    r.searched ≤ min r.buffer.length (saturatingAdd UInt64.size max.toNat 1) ∧
      Line.feed ∉ r.buffer.take r.searched ∧
      (r.buffer.length < UInt64.size → r.next? = some r.next ∧ r.finish? = some r.finish) ∧
      (r.next.1 = none → r.next.2.buffer.length ≤ max.toNat ∧ Line.feed ∉ r.next.2.buffer ∧
        (r.next.2.discarding = true → r.next.2.buffer = [])) ∧
      (r.finish.1 = none → r.finish.2.buffer = [] ∧ r.finish.2.searched = 0 ∧
        r.finish.2.discarding = false) := by
  intro r
  have hnew : Lawful max.toNat { maxLength := max.toNat } := lawful_of_searched_eq_zero rfl rfl
  have h : r.Lawful max.toNat := hnew.foldl_perform operations
  refine ⟨?_, h.feed_not_mem, ?_, ?_, ?_⟩
  · have hle := h.searched_le
    have hmax := h.searched_le_max
    have hword := max.toNat_lt_size
    simp only [saturatingAdd]
    omega
  · exact fun hword => ⟨Fits.next?_eq ⟨h, hword⟩, Fits.finish?_eq ⟨h, hword⟩⟩
  · intro hn
    have hquiet := h.quiet_next hn
    exact ⟨h.next.maxLength_eq ▸ hquiet.length_le, hquiet.feed_not_mem, hquiet.buffer_eq_nil⟩
  · intro hn
    rw [h.finish_snd hn]
    exact ⟨rfl, rfl, rfl⟩

/-- A line of at most eight bytes is wanted: ten bytes without a line feed are dropped as they
    come, then the rest of that line is, and two blanks stay that no line feed follows. -/
theorem bounds_of_operations_oversized :
    let r := [.feed (List.replicate 10 0x30), .next, .feed [0x61, 0x62, 0x0A, 0x20, 0x0D],
      .next].foldl perform { maxLength := (8 : UInt64).toNat }
    (r.buffer.length < UInt64.size ∧ r.next? = some r.next ∧ r.finish? = some r.finish) ∧
      (r.next.1 = none ∧ r.next.2.buffer.length ≤ 8 ∧ Line.feed ∉ r.next.2.buffer) ∧
      (r.finish.1 = none ∧ r.finish.2.buffer = []) := by
  have h := bounds_of_operations 8
    [.feed (List.replicate 10 0x30), .next, .feed [0x61, 0x62, 0x0A, 0x20, 0x0D], .next]
  have hr : [.feed (List.replicate 10 0x30), .next, .feed [0x61, 0x62, 0x0A, 0x20, 0x0D],
      .next].foldl perform { maxLength := (8 : UInt64).toNat } =
      { maxLength := 8, buffer := [0x20, 0x0D] } := by cbv
  rw [hr] at h ⊢
  have hword : [0x20, 0x0D].length < UInt64.size := by decide
  have hnext : (next { maxLength := 8, buffer := [0x20, 0x0D] }).1 = none := by cbv
  have hfinish : (finish { maxLength := 8, buffer := [0x20, 0x0D] }).1 = none := by cbv
  obtain ⟨-, -, hchecked, hnone, hlast⟩ := h
  exact ⟨⟨hword, hchecked hword⟩, ⟨hnext, (hnone hnext).1, (hnone hnext).2.1⟩, hfinish,
    (hlast hfinish).1⟩

end MetricIntake.LineReader
