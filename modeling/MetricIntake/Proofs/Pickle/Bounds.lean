-- SUMMARY: Where a framer stands between two scans of a growing buffer, and that every scan takes sums and slices in range only and ends.
import MetricIntake.Proofs.Checked
import MetricIntake.Proofs.Pickle.Grammar

/-!
# The bounds of a framer

Counts of up to eight bytes come from the buffer and are added to offsets, and slices begin at
offsets that were kept from shorter buffers. `turn?` is one turn of the scan with all its sums
and slices checked, and a loop of such turns is equal to `scan` (`Within.loop_eq`), so none of
them fails and the loop ends.

What makes this true is `Within`: the offsets that a framer keeps lie in the buffer, and a
line of the argument is still missing. It holds before and after every scan, and at every turn.
-/

namespace MetricIntake.Pickle

open MetricIntake.Checked

/-- The layout of the argument of the opcode at an offset, if there is an opcode. -/
def layoutAt? (buffer : List UInt8) (pos : Nat) : Option Layout :=
  buffer[pos]?.bind Layout.ofOpcode?

section

variable {buffer : List UInt8} {pos : Nat} {op : UInt8} {layout : Layout}

theorem layoutAt?_of_getElem? (hop : buffer[pos]? = some op)
    (hlayout : Layout.ofOpcode? op = some layout) : layoutAt? buffer pos = some layout :=
  Option.bind_eq_some_iff.2 ⟨op, hop, hlayout⟩

theorem lt_length_of_layoutAt? (h : layoutAt? buffer pos = some layout) : pos < buffer.length := by
  obtain ⟨op, hop, -⟩ := Option.bind_eq_some_iff.1 h
  exact (List.getElem?_eq_some_iff.1 hop).1

theorem small_of_layoutAt? (h : layoutAt? buffer pos = some layout) : layout.Small := by
  obtain ⟨op, -, hlayout⟩ := Option.bind_eq_some_iff.1 h
  exact Layout.small_of_ofOpcode? hlayout

end

namespace Framer

variable {f g : Framer} {buffer longer : List UInt8} {op : UInt8} {layout : Layout} {n : Nat}

-- ---------------------------------------------------------------------------
-- Turns of a scan
-- ---------------------------------------------------------------------------

/-- What the bytes say of an argument: at what offset it ends, or what the scan answers. In
    both cases the framer is as it is left. -/
inductive Found where
  | ends (offset : Nat) (f : Framer)
  | answers (answer : Framing) (f : Framer)

/-- The turn of a scan once it is known what the bytes say of the argument of an opcode. -/
def Found.turn (buffer : List UInt8) (op : UInt8) : Found → Turn Framer (Framing × Framer)
  | .answers answer f => .leaves (answer, f)
  | .ends offset f =>
    if buffer.length < offset then .leaves (.incomplete, f)
    else if op = stop then .leaves (.complete offset, f)
    else .goesOn { pos := offset }

/-- What the extent of the argument of the opcode at `f.pos` says. -/
def Extent.found (f : Framer) : Extent → Found
  | .known n => .ends (f.pos + 1 + n) f
  | .pending f => .answers .incomplete f
  | .impossible => .answers .invalid f

/-- One turn of a scan: it goes on past an instruction that is there. -/
def turn (buffer : List UInt8) (f : Framer) : Turn Framer (Framing × Framer) :=
  match buffer[f.pos]? with
  | none => .leaves (.incomplete, f)
  | some op =>
    match Layout.ofOpcode? op with
    | none => .leaves (.invalid, f)
    | some layout => ((f.extent (buffer.drop (f.pos + 1)) layout).found f).turn buffer op

/-- A count of up to eight bytes as a word, filled up with zeros. -/
def word? (count : List UInt8) : Option Nat :=
  (slice? (List.replicate 8 0) count.length 8).map fun zeros => littleEndian (count ++ zeros)

/-- One turn of the search for the lines of an argument, from offset `start` on: it goes on
    past a line that is not the last one. -/
def lineTurn? (buffer : List UInt8) (lines : Nat) :
    Framer × Nat → Option (Turn (Framer × Nat) Found)
  | (f, start) => do
    let bytes ← slice? buffer start buffer.length
    match bytes.findIdx? (· == 0x0A) with
    | none => return .leaves (.answers .incomplete { f with lineFrom := buffer.length })
    | some i =>
      let start ← add? offsetLimit start (← add? offsetLimit i 1)
      let seen ← add? UInt8.size f.linesSeen 1
      let f := { f with linesSeen := seen, lineFrom := start }
      return if seen = lines then .leaves (.ends start f) else .goesOn (f, start)

/-- What the bytes say of the argument at offset `body`, with all sums and slices checked. -/
def argument? (buffer : List UInt8) (f : Framer) (body : Nat) : Layout → Option Found
  | .fixed n => do return .ends (← add? offsetLimit body n) f
  | .counted width => do
    let behind ← add? offsetLimit body width
    -- a count that is cut off is waited for, and one that leads too far is refused
    match slice? buffer body behind with
    | none => return .answers .incomplete f
    | some count =>
      let n ← word? count
      return match add? offsetLimit behind n with
        | none => .answers .invalid f
        | some offset => .ends offset f
  | .signedCounted => do
    let behind ← add? offsetLimit body 4
    match slice? buffer body behind with
    | none => return .answers .incomplete f
    | some count =>
      if littleEndian count < signedCountLimit then
        return .ends (← add? offsetLimit behind (littleEndian count)) f
      else return .answers .invalid f
  | .lines n => loop (lineTurn? buffer n) n (f, max f.lineFrom body)

/-- The turn of a scan with all its sums and slices checked. -/
def turn? (buffer : List UInt8) (f : Framer) : Option (Turn Framer (Framing × Framer)) :=
  match buffer[f.pos]? with
  | none => some (.leaves (.incomplete, f))
  | some op =>
    match Layout.ofOpcode? op with
    | none => some (.leaves (.invalid, f))
    | some layout => do
      let body ← add? offsetLimit f.pos 1
      let found ← f.argument? buffer body layout
      return found.turn buffer op

-- ---------------------------------------------------------------------------
-- Between two scans
-- ---------------------------------------------------------------------------

/-- Where a framer stands in the buffer that it has scanned or is to scan: its offsets lie in
    it, and of the lines of the argument at hand not all have been seen. An opcode without
    lines, or no opcode, has none that are seen. -/
structure Within (f : Framer) (buffer : List UInt8) : Prop where
  pos_le : f.pos ≤ buffer.length
  lineFrom_le : f.lineFrom ≤ buffer.length
  linesSeen_lt : ∀ n, layoutAt? buffer f.pos = some (.lines n) → f.linesSeen < n
  linesSeen_eq_zero : (∀ n, layoutAt? buffer f.pos ≠ some (.lines n)) → f.linesSeen = 0

/-- A framer that comes to an opcode has seen none of its lines. -/
theorem within_of_le {pos : Nat} (h : pos ≤ buffer.length) : Within { pos } buffer where
  pos_le := h
  lineFrom_le := Nat.zero_le _
  linesSeen_lt _ hlines := (small_of_layoutAt? hlines).1
  linesSeen_eq_zero _ := rfl

/-- A framer stands in every longer buffer as it does in the one before. -/
theorem Within.mono (h : f.Within buffer) (hfront : buffer <+: longer) : f.Within longer := by
  have hle := hfront.length_le
  rcases Nat.lt_or_eq_of_le h.pos_le with hlt | hend
  · have hsame : layoutAt? longer f.pos = layoutAt? buffer f.pos := by
      obtain ⟨more, rfl⟩ := hfront
      rw [layoutAt?, List.getElem?_append_left hlt, layoutAt?]
    exact ⟨Nat.le_trans h.pos_le hle, Nat.le_trans h.lineFrom_le hle, hsame ▸ h.linesSeen_lt,
      hsame ▸ h.linesSeen_eq_zero⟩
  · -- the opcode has not been there so far
    have hseen : f.linesSeen = 0 := by
      apply h.linesSeen_eq_zero
      simp [layoutAt?, hend]
    refine ⟨Nat.le_trans h.pos_le hle, Nat.le_trans h.lineFrom_le hle, ?_, fun _ => hseen⟩
    intro n hlines
    rw [hseen]
    exact (small_of_layoutAt? hlines).1

/-- A search that runs out of bytes has not seen all the lines that were missing. -/
theorem seekLines_pending_lt {body missing seen start : Nat} {bytes : List UInt8}
    (h : seekLines f body bytes missing seen start = .pending g) :
    g.linesSeen < seen + missing := by
  induction missing generalizing seen start with
  | zero => cases h
  | succ missing ih =>
    rw [seekLines] at h
    split at h
    · cases h
      exact Nat.lt_add_of_pos_right (Nat.succ_pos missing)
    · have hseen := ih h
      omega

/-- A framer that waits for the rest of an argument stands where it stood. -/
theorem Within.of_pending (h : f.Within buffer) (hlayout : layoutAt? buffer f.pos = some layout)
    (hext : f.extent (buffer.drop (f.pos + 1)) layout = .pending g) : g.Within buffer := by
  have hlt := lt_length_of_layoutAt? hlayout
  have hlength : f.pos + 1 + (buffer.drop (f.pos + 1)).length = buffer.length := by
    rw [List.length_drop]
    omega
  obtain ⟨hpos, hfrom, -, rfl | ⟨n, rfl⟩⟩ := extent_pending hext (hlength ▸ h.lineFrom_le)
  · exact h
  · refine ⟨hpos ▸ h.pos_le, hlength ▸ hfrom, ?_, ?_⟩
    · intro m hm
      rw [hpos, hlayout] at hm
      cases hm
      have hseen := seekLines_pending_lt hext
      have := h.linesSeen_lt n hlayout
      omega
    · intro hnone
      rw [hpos] at hnone
      exact absurd hlayout (hnone n)

-- ---------------------------------------------------------------------------
-- Turns and scans
-- ---------------------------------------------------------------------------

/-- At an opcode a scan goes on with the rest of the buffer. -/
theorem scan_of_getElem? (hop : buffer[f.pos]? = some op) :
    f.scan buffer = f.scanFrom (op :: buffer.drop (f.pos + 1)) := by
  obtain ⟨hlt, rfl⟩ := List.getElem?_eq_some_iff.1 hop
  rw [scan, List.drop_eq_getElem_cons hlt]

/-- A scan goes on from turn to turn. -/
theorem scan_eq (buffer : List UInt8) (f : Framer) :
    f.scan buffer = (f.turn buffer).result (·.scan buffer) := by
  cases hop : buffer[f.pos]? with
  | none =>
    rw [scan, List.drop_eq_nil_of_le (List.getElem?_eq_none_iff.1 hop), scanFrom_nil]
    simp only [turn, hop, Turn.result]
  | some op =>
    rw [scan_of_getElem? hop]
    cases hlayout : Layout.ofOpcode? op with
    | none =>
      rw [scanFrom_of_unknown hlayout]
      simp only [turn, hop, hlayout, Turn.result]
    | some layout =>
      simp only [turn, hop, hlayout]
      cases hext : f.extent (buffer.drop (f.pos + 1)) layout with
      | pending g => exact scanFrom_of_pending hlayout hext
      | impossible => exact scanFrom_of_impossible hlayout hext
      | known n =>
        rw [scanFrom_of_known hlayout hext, Extent.found, Found.turn]
        have hlt := (List.getElem?_eq_some_iff.1 hop).1
        have hlength : (buffer.drop (f.pos + 1)).length = buffer.length - (f.pos + 1) :=
          List.length_drop
        by_cases hshort : buffer.length < f.pos + 1 + n
        · rw [take?_eq_none_iff.2 (by omega), if_pos hshort]
          rfl
        · have htake : take? n (buffer.drop (f.pos + 1)) =
              some ((buffer.drop (f.pos + 1)).take n, (buffer.drop (f.pos + 1)).drop n) := by
            rw [take?_eq_some_iff, List.length_take, List.take_append_drop]
            exact ⟨rfl, by omega⟩
          rw [htake, if_neg hshort]
          simp only [List.drop_drop]
          split <;> rfl

/-- What a framer and its answer are like when a scan of a buffer is over: the framer stands
    within the buffer, and a complete pickle is in it and ends with STOP. -/
structure Answered (buffer : List UInt8) (answer : Framing × Framer) : Prop where
  within : answer.2.Within buffer
  complete : ∀ n, answer.1 = .complete n →
    1 ≤ n ∧ n ≤ buffer.length ∧ buffer[n - 1]? = some stop

/-- A turn that goes on leaves a framer that stands further on. -/
theorem Within.turn (h : f.Within buffer) :
    (f.turn buffer).Keeps (·.Within buffer) (Answered buffer) (buffer.length - ·.pos) f := by
  have hincomplete : ∀ g : Framer, g.Within buffer → Answered buffer (.incomplete, g) :=
    fun g hg => ⟨hg, nofun⟩
  have hinvalid : Answered buffer (.invalid, f) := ⟨h, nofun⟩
  unfold Framer.turn
  split
  · exact .leaves (hincomplete f h)
  · rename_i op hop
    split
    · exact .leaves hinvalid
    · rename_i layout hlayout
      have hat := layoutAt?_of_getElem? hop hlayout
      cases hext : f.extent (buffer.drop (f.pos + 1)) layout with
      | pending g => exact .leaves (hincomplete g (h.of_pending hat hext))
      | impossible => exact .leaves hinvalid
      | known n =>
        rw [Extent.found, Found.turn]
        split
        · exact .leaves (hincomplete f h)
        · rename_i hlong
          have hle := Nat.not_lt.1 hlong
          split
          · rename_i hstop
            subst hstop
            obtain rfl := Option.some.inj (ofOpcode?_stop.symm.trans hlayout)
            obtain rfl := Extent.known.inj hext
            refine .leaves ⟨h, ?_⟩
            rintro n hn
            obtain rfl := Framing.complete.inj hn
            exact ⟨Nat.succ_le_succ (Nat.zero_le _), hle, hop⟩
          · exact .goesOn (within_of_le hle) (by dsimp only; omega)

-- ---------------------------------------------------------------------------
-- Arguments
-- ---------------------------------------------------------------------------

/-- A slice from an offset on is what can be taken from the bytes there. -/
theorem slice?_eq_take? {body : Nat} (width : Nat) (h : body ≤ buffer.length) :
    slice? buffer body (body + width) = (take? width (buffer.drop body)).map Prod.fst := by
  cases htake : take? width (buffer.drop body) with
  | none =>
    have hshort := take?_eq_none_iff.1 htake
    rw [List.length_drop] at hshort
    exact slice?_of_length_lt (by omega)
  | some parts =>
    have hlength := length_of_take?_eq_some htake
    obtain ⟨hbytes, hwidth⟩ := take?_eq_some_iff.1 htake
    rw [List.length_drop] at hlength
    rw [slice?_of_le (Nat.le_add_right body width) (by omega), Nat.add_sub_cancel_left, hbytes,
      List.take_left' hwidth]
    rfl

/-- A count that is not too long is the same number with zeros behind it. -/
theorem word?_eq {count : List UInt8} (h : count.length ≤ 8) :
    word? count = some (littleEndian count) := by
  have hzeros : slice? (List.replicate 8 0) count.length 8 =
      some (List.replicate (8 - count.length) 0) := by
    rw [← List.drop_replicate]
    exact slice?_back h
  rw [word?, hzeros, Option.map_some, littleEndian_append_zeros]

/-- The sums and slices of an argument that has no lines do not fail. -/
theorem argument?_of_bytes (hpos : f.pos < buffer.length) (hmemory : buffer.length < bufferLimit)
    (hsmall : layout.Small) (hlines : ∀ n, layout ≠ .lines n) :
    f.argument? buffer (f.pos + 1) layout =
      some ((f.extent (buffer.drop (f.pos + 1)) layout).found f) := by
  have hroom : bufferLimit + signedCountLimit + 8 < offsetLimit := by decide
  have hslice := fun width => slice?_eq_take? width (Nat.succ_le_of_lt hpos)
  cases layout with
  | fixed n =>
    have hn : n ≤ 8 := hsmall
    have hend : add? offsetLimit (f.pos + 1) n = some (f.pos + 1 + n) := add?_of_lt (by omega)
    simp [argument?, hend, extent, Extent.found]
  | counted width =>
    have hwidth : width ≤ 8 := hsmall
    have hbehind : add? offsetLimit (f.pos + 1) width = some (f.pos + 1 + width) :=
      add?_of_lt (by omega)
    cases htake : take? width (buffer.drop (f.pos + 1)) with
    | none => simp [argument?, hbehind, hslice, htake, extent, Extent.found]
    | some parts =>
      have hlength := (take?_eq_some_iff.1 htake).2
      have hword : word? parts.1 = some (littleEndian parts.1) := word?_eq (by omega)
      by_cases hlimit : f.pos + 1 + width + littleEndian parts.1 < offsetLimit
      · simp [argument?, hbehind, hslice, htake, hword, extent, add?_of_lt hlimit, ← Nat.add_assoc,
          hlimit, Extent.found]
      · simp [argument?, hbehind, hslice, htake, hword, extent, add?_of_le (Nat.not_lt.1 hlimit),
          ← Nat.add_assoc, hlimit, Extent.found]
  | signedCounted =>
    have hbehind : add? offsetLimit (f.pos + 1) 4 = some (f.pos + 1 + 4) := add?_of_lt (by omega)
    cases htake : take? 4 (buffer.drop (f.pos + 1)) with
    | none => simp [argument?, hbehind, hslice, htake, extent, Extent.found]
    | some parts =>
      by_cases hcount : littleEndian parts.1 < signedCountLimit
      · have hend : add? offsetLimit (f.pos + 1 + 4) (littleEndian parts.1) =
            some (f.pos + 1 + 4 + littleEndian parts.1) := add?_of_lt (by omega)
        simp [argument?, hbehind, hslice, htake, hcount, hend, extent, Extent.found, ← Nat.add_assoc]
      · simp [argument?, hbehind, hslice, htake, hcount, extent, Extent.found]
  | lines n => exact absurd rfl (hlines n)

/-- What the search for lines in the rest of the buffer comes to, as what the bytes say. -/
inductive Sought (f : Framer) (buffer : List UInt8) : Extent → Found → Prop
  | found {n offset : Nat} {g : Framer} : offset = f.pos + 1 + n → offset ≤ buffer.length →
    Sought f buffer (.known n) (.ends offset g)
  | missing {g : Framer} : Sought f buffer (.pending g) (.answers .incomplete g)

/-- Where the search for the lines of the argument at hand stands: from an offset in the buffer
    on it comes to the extent of the argument, and a line is still missing. -/
structure Seeking (f : Framer) (buffer : List UInt8) (lines : Nat) (s : Framer × Nat) : Prop where
  pos_eq : s.1.pos = f.pos
  body_le : f.pos + 1 ≤ s.2
  le_length : s.2 ≤ buffer.length
  linesSeen_lt : s.1.linesSeen < lines
  seekLines_eq : seekLines f (f.pos + 1) (buffer.drop (f.pos + 1)) (lines - s.1.linesSeen)
    s.1.linesSeen s.2 = f.extent (buffer.drop (f.pos + 1)) (.lines lines)

/-- The sums and slices of a turn of the search for lines do not fail. -/
theorem Seeking.turn {s : Framer × Nat} (h : Seeking f buffer n s) (htwo : n ≤ 2)
    (hmemory : buffer.length < bufferLimit) :
    ∃ t, lineTurn? buffer n s = some t ∧
      t.Keeps (Seeking f buffer n) (Sought f buffer (f.extent (buffer.drop (f.pos + 1)) (.lines n)))
        (n - 1 - ·.1.linesSeen) s := by
  obtain ⟨⟨pos, seen, lineFrom⟩, start⟩ := s
  obtain ⟨hpos, hbody, hle, hseen, hseek⟩ := h
  dsimp only at hpos hbody hle hseen hseek
  subst hpos
  have hbytes := slice?_back hle
  have hrest : (buffer.drop (f.pos + 1)).drop (start - (f.pos + 1)) = buffer.drop start := by
    rw [List.drop_drop, Nat.add_sub_cancel' hbody]
  have hmissing : n - seen = n - (seen + 1) + 1 := by omega
  rw [hmissing, seekLines, hrest] at hseek
  cases hi : (buffer.drop start).findIdx? (· == 0x0A) with
  | none =>
    have hend : f.pos + 1 + (buffer.drop (f.pos + 1)).length = buffer.length := by
      rw [List.length_drop]
      omega
    rw [hi, hend] at hseek
    have hturn : lineTurn? buffer n (⟨f.pos, seen, lineFrom⟩, start) =
        some (.leaves (.answers .incomplete ⟨f.pos, seen, buffer.length⟩)) := by
      simp [lineTurn?, hbytes, hi]
    refine ⟨_, hturn, .leaves ?_⟩
    rw [← hseek]
    exact .missing
  | some i =>
    have hlt := (List.findIdx?_eq_some_iff_getElem.1 hi).1
    rw [List.length_drop] at hlt
    have hwords : bufferLimit + 8 < offsetLimit := by decide
    have hstep : add? offsetLimit i 1 = some (i + 1) := add?_of_lt (by omega)
    have hnext : add? offsetLimit start (i + 1) = some (start + i + 1) := add?_of_lt (by omega)
    have hone : add? UInt8.size seen 1 = some (seen + 1) := by
      have hsize : 3 < UInt8.size := by decide
      exact add?_of_lt (by omega)
    rw [hi] at hseek
    dsimp only at hseek
    by_cases hlast : seen + 1 = n
    · have hturn : lineTurn? buffer n (⟨f.pos, seen, lineFrom⟩, start) =
          some (.leaves (.ends (start + i + 1) ⟨f.pos, seen + 1, start + i + 1⟩)) := by
        simp [lineTurn?, hbytes, hi, hstep, hnext, hone, hlast]
      refine ⟨_, hturn, .leaves ?_⟩
      rw [← hseek, hlast, Nat.sub_self, seekLines]
      exact .found (by omega) (by omega)
    · have hturn : lineTurn? buffer n (⟨f.pos, seen, lineFrom⟩, start) =
          some (.goesOn (⟨f.pos, seen + 1, start + i + 1⟩, start + i + 1)) := by
        simp [lineTurn?, hbytes, hi, hstep, hnext, hone, hlast]
      refine ⟨_, hturn, .goesOn ⟨rfl, ?_, ?_, ?_, hseek⟩ ?_⟩
      all_goals dsimp only; omega

/-- The sums and slices of the search for lines do not fail, and it ends. -/
theorem Within.argument?_lines (h : f.Within buffer) (hmemory : buffer.length < bufferLimit)
    (hat : layoutAt? buffer f.pos = some (.lines n)) :
    ∃ found, f.argument? buffer (f.pos + 1) (.lines n) = some found ∧
      Sought f buffer (f.extent (buffer.drop (f.pos + 1)) (.lines n)) found := by
  have hpos := lt_length_of_layoutAt? hat
  have htwo : n ≤ 2 := (small_of_layoutAt? hat).2
  have hseen := h.linesSeen_lt n hat
  have hfrom := h.lineFrom_le
  have hstart : Seeking f buffer n (f, max f.lineFrom (f.pos + 1)) :=
    ⟨rfl, Nat.le_max_right _ _, Nat.max_le.2 ⟨hfrom, hpos⟩, hseen, rfl⟩
  exact exists_loop_eq (fun s hs => hs.turn htwo hmemory) hstart (by dsimp only; omega)

/-- Past an opcode other than STOP, what is sought leads to the turn of the scan. -/
theorem Sought.turn_eq {extent : Extent} {found : Found} (h : Sought f buffer extent found)
    (hstop : op ≠ stop) : found.turn buffer op = (extent.found f).turn buffer op := by
  cases h with
  | missing => rfl
  | found hoffset hle =>
    subst hoffset
    simp only [Extent.found, Found.turn, if_neg hstop, if_neg (Nat.not_lt.2 hle)]

/-- No sum and no slice of a turn fails. -/
theorem Within.turn?_eq (h : f.Within buffer) (hmemory : buffer.length < bufferLimit) :
    f.turn? buffer = some (f.turn buffer) := by
  unfold turn? Framer.turn
  split
  · rfl
  · rename_i op hop
    split
    · rfl
    · rename_i layout hlayout
      have hpos := (List.getElem?_eq_some_iff.1 hop).1
      have hbody : add? offsetLimit f.pos 1 = some (f.pos + 1) := by
        have hroom : bufferLimit < offsetLimit := by decide
        exact add?_of_lt (by omega)
      by_cases hlines : ∃ n, layout = .lines n
      · obtain ⟨n, rfl⟩ := hlines
        have hat := layoutAt?_of_getElem? hop hlayout
        have hstop : op ≠ stop := by
          rintro rfl
          cases ofOpcode?_stop.symm.trans hlayout
        obtain ⟨found, hfound, hsought⟩ := h.argument?_lines hmemory hat
        simp [hbody, hfound, hsought.turn_eq hstop]
      · have hbytes := argument?_of_bytes hpos hmemory (Layout.small_of_ofOpcode? hlayout)
          (not_exists.1 hlines)
        simp [hbody, hbytes]

/-- A search for a line that begins behind the buffer takes a slice that is out of range. -/
example : (turn? [0x53, 0x61] { lineFrom := 3 }).isNone := by decide

/-- The turns of a scan are the scan: none of them fails, and it ends. -/
theorem Within.loop_eq (h : f.Within buffer) (hmemory : buffer.length < bufferLimit) :
    loop (turn? buffer) (buffer.length - f.pos + 1) f = some (f.scan buffer) ∧
      Answered buffer (f.scan buffer) :=
  Checked.loop_eq (scan_eq buffer) (fun _ hg => hg.turn?_eq hmemory) (fun _ => Within.turn) h
    (Nat.lt_succ_self _)

-- ---------------------------------------------------------------------------
-- Growing buffers
-- ---------------------------------------------------------------------------

/-- The framer that is left when buffer after buffer has been scanned. -/
def afterAll (f : Framer) (buffers : List (List UInt8)) : Framer :=
  buffers.foldl (fun f buffer => (f.scan buffer).2) f

/-- On a growing buffer a framer stands within every buffer that it comes to. -/
theorem Within.afterAll {earlier : List (List UInt8)} {last : List UInt8} (h : f.Within last)
    (hgrowing : Growing (last :: (earlier ++ [buffer]))) (hmemory : buffer.length < bufferLimit) :
    (f.afterAll earlier).Within buffer := by
  induction earlier generalizing f last with
  | nil => exact h.mono (List.isChain_cons_cons.1 hgrowing).1
  | cons next earlier ih =>
    obtain ⟨hnext, hrest⟩ := List.isChain_cons_cons.1 hgrowing
    have hlonger : next <+: buffer := by
      refine (List.pairwise_cons.1 hrest.pairwise).1 buffer ?_
      exact List.mem_append_right _ (List.mem_singleton_self buffer)
    have hshort := Nat.lt_of_le_of_lt hlonger.length_le hmemory
    exact ih ((h.mono hnext).loop_eq hshort).2.within hrest

/-- However a buffer grows, a framer stands within it before and after every scan and at every
    turn of it. So no sum and no slice of a scan fails, whatever counts the buffer holds, and
    every turn that goes on leads further, until the scan ends. A pickle that it finds complete
    is in the buffer and ends with STOP. -/
theorem within_of_growing {earlier : List (List UInt8)} {buffer : List UInt8}
    (hgrowing : Growing (earlier ++ [buffer])) (hmemory : buffer.length < bufferLimit) :
    let f := afterAll {} earlier
    (f.Within buffer ∧ (f.scan buffer).2.Within buffer) ∧
      loop (turn? buffer) (buffer.length - f.pos + 1) f = some (f.scan buffer) ∧
      (∀ g, Reaches (turn? buffer) f g → g.Within buffer ∧ ∃ t, g.turn? buffer = some t ∧
        ∀ g', t = .goesOn g' → g.pos < g'.pos) ∧
      ∀ n, (f.scan buffer).1 = .complete n →
        1 ≤ n ∧ n ≤ buffer.length ∧ buffer[n - 1]? = some stop := by
  intro f
  have hnew : Growing ([] :: (earlier ++ [buffer])) :=
    List.isChain_cons.2 ⟨fun _ _ => List.nil_prefix, hgrowing⟩
  have h : f.Within buffer := (within_of_le (Nat.zero_le _)).afterAll hnew hmemory
  obtain ⟨hloop, hanswered⟩ := h.loop_eq hmemory
  have hturn : ∀ g : Framer, g.Within buffer → ∃ t, g.turn? buffer = some t ∧
      t.Keeps (·.Within buffer) (Answered buffer) (buffer.length - ·.pos) g :=
    fun g hg => ⟨g.turn buffer, hg.turn?_eq hmemory, hg.turn⟩
  refine ⟨⟨h, hanswered.within⟩, hloop, ?_, hanswered.complete⟩
  intro g hreaches
  have hg : g.Within buffer := hreaches.keeps hturn h
  obtain ⟨t, ht, hkeeps⟩ := hturn g hg
  refine ⟨hg, t, ht, ?_⟩
  rintro g' rfl
  cases hkeeps with
  | goesOn _ hless => omega

/-- A global whose second line has begun, then the rest of that line, STOP and another byte. -/
theorem within_of_growing_global :
    let earlier : List (List UInt8) := [[0x63, 0x6D], [0x63, 0x6D, 0x0A, 0x6E]]
    let buffer : List UInt8 := [0x63, 0x6D, 0x0A, 0x6E, 0x0A, 0x2E, 0x4E]
    let f := afterAll {} earlier
    (Growing (earlier ++ [buffer]) ∧ buffer.length < bufferLimit ∧ f.linesSeen = 1) ∧
      f.Within buffer ∧ loop (turn? buffer) 8 f = some (f.scan buffer) ∧
      (f.scan buffer).1 = .complete 6 ∧ buffer[5]? = some stop := by
  intro earlier buffer f
  have hgrowing : Growing (earlier ++ [buffer]) := by decide
  have hmemory : buffer.length < bufferLimit := by decide
  have hf : afterAll {} earlier = { pos := 0, linesSeen := 1, lineFrom := 4 } := by
    change afterAll {} [[0x63, 0x6D], [0x63, 0x6D, 0x0A, 0x6E]] = _
    cbv
  have hcomplete : (scan { pos := 0, linesSeen := 1, lineFrom := 4 } buffer).1 = .complete 6 := by
    change (scan _ [0x63, 0x6D, 0x0A, 0x6E, 0x0A, 0x2E, 0x4E]).1 = _
    cbv
  obtain ⟨⟨hwithin, -⟩, hloop, -, hstop⟩ := within_of_growing hgrowing hmemory
  rw [hf] at hwithin hloop hstop
  rw [show f = { pos := 0, linesSeen := 1, lineFrom := 4 } from hf]
  exact ⟨⟨hgrowing, hmemory, rfl⟩, hwithin, hloop, hcomplete, (hstop 6 hcomplete).2.2⟩

end Framer

end MetricIntake.Pickle
