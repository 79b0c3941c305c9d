-- SUMMARY: A fresh framer decides the layout grammar: it knows the frames, the buffers that may become one, and those that never will.
import Mathlib
import MetricIntake.Proofs.Pickle.Frame
import MetricIntake.Proofs.Pickle.Opcode

/-!
# Framing and the grammar

What a fresh framer answers on a buffer is said by the grammar alone. A scan that
comes to an end has walked along a derivation; a scan that needs more bytes has walked
along the beginning of one, and bytes can be written that finish it. So a buffer is
given up on only if nothing that follows it could make a frame of its beginning.

A count may ask for more bytes than offsets can number. A buffer that lies in memory
is so short that a count which is cut off, or was accepted, still has room.
-/

namespace MetricIntake.Pickle

/-- Lengths of buffers are signed words of 64 bits. -/
def bufferLimit : Nat := UInt64.size / 2

theorem littleEndian_append_zeros (bytes : List UInt8) (k : Nat) :
    littleEndian (bytes ++ List.replicate k 0) = littleEndian bytes := by
  have hzeros : littleEndian (List.replicate k 0) = 0 := by
    induction k with
    | zero => rfl
    | succ k ih =>
      rw [List.replicate_succ, littleEndian, List.foldr_cons]
      exact congrArg (0 + 256 * ·) ih
  rw [littleEndian, List.foldr_append]
  exact congrArg (bytes.foldr _) hzeros

/-- No argument has a count of more than eight bytes, more than eight bytes that are not
    counted, or more than two lines. -/
def Layout.Small : Layout → Prop
  | .fixed n => n ≤ 8
  | .counted width => width ≤ 8
  | .signedCounted => True
  | .lines n => 0 < n ∧ n ≤ 2

theorem Layout.small_of_ofOpcode? {op : UInt8} {layout : Layout}
    (h : Layout.ofOpcode? op = some layout) : layout.Small := by
  unfold ofOpcode? at h
  split at h
  · cases h
    exact Nat.zero_le 8
  · split at h <;> cases h <;> simp [Small]

-- ---------------------------------------------------------------------------
-- Lines
-- ---------------------------------------------------------------------------

/-- Bytes hold no line feed, or begin with a line. -/
theorem findIdx?_feed_cases (bytes : List UInt8) :
    ((0x0A : UInt8) ∉ bytes ∧ bytes.findIdx? (· == 0x0A) = none) ∨
      ∃ line rest, (0x0A : UInt8) ∉ line ∧ bytes = line ++ [0x0A] ++ rest ∧
        bytes.findIdx? (· == 0x0A) = some line.length := by
  induction bytes with
  | nil => exact .inl ⟨nofun, rfl⟩
  | cons b bytes ih =>
    by_cases hfeed : b = 0x0A
    · subst hfeed
      exact .inr ⟨[], bytes, nofun, rfl, rfl⟩
    · have hne : (b == 0x0A) = false := beq_eq_false_iff_ne.2 hfeed
      have hnot : ∀ {line : List UInt8}, (0x0A : UInt8) ∉ line → (0x0A : UInt8) ∉ b :: line :=
        fun hline hmem => (List.mem_cons.1 hmem).elim (fun h => hfeed h.symm) hline
      rw [List.findIdx?_cons, hne]
      rcases ih with ⟨hnone, hfind⟩ | ⟨line, rest, hline, rfl, hfind⟩
      · rw [hfind]
        exact .inl ⟨hnot hnone, rfl⟩
      · rw [hfind]
        exact .inr ⟨b :: line, rest, hnot hline, rfl, rfl⟩

theorem argument_replicate_feed (n at_ : Nat) :
    Argument (.lines n) at_ (List.replicate n 0x0A) := by
  induction n generalizing at_ with
  | zero => exact .noLines
  | succ n ih => exact @Argument.line n at_ [0x0A] _ ⟨[], nofun, rfl⟩ (ih _)

namespace Framer

variable {f g : Framer} {layout : Layout} {at_ n : Nat} {bytes front rest : List UInt8}

/-- The search for lines behind `pre` goes on behind the first of them, or has run out
    of bytes. -/
theorem seekLines_succ_cases (f : Framer) (body missing seen : Nat) (pre bytes : List UInt8) :
    ((0x0A : UInt8) ∉ bytes ∧
      ∃ g, seekLines f body (pre ++ bytes) (missing + 1) seen (body + pre.length) = .pending g) ∨
    ∃ first rest, IsLine first ∧ bytes = first ++ rest ∧
      seekLines f body (pre ++ bytes) (missing + 1) seen (body + pre.length) =
        seekLines f body (pre ++ first ++ rest) missing (seen + 1) (body + (pre ++ first).length) := by
  rw [seekLines, Nat.add_sub_cancel_left, List.drop_left]
  rcases findIdx?_feed_cases bytes with ⟨hnone, hfind⟩ | ⟨line, rest, hline, rfl, hfind⟩
  · rw [hfind]
    exact .inl ⟨hnone, _, rfl⟩
  · rw [hfind]
    refine .inr ⟨line ++ [0x0A], rest, ⟨line, hline, rfl⟩, rfl, ?_⟩
    have hstart : body + pre.length + line.length + 1 = body + (pre ++ (line ++ [0x0A])).length := by
      simp only [List.length_append, List.length_singleton]
      omega
    simp only [hstart, List.append_assoc]

/-- Lines that are found are lines. -/
theorem argument_of_seekLines (at_ : Nat) {body missing seen : Nat} (pre : List UInt8)
    (h : seekLines f body (pre ++ bytes) missing seen (body + pre.length) = .known n) :
    ∃ argument rest, bytes = argument ++ rest ∧ Argument (.lines missing) at_ argument ∧
      n = pre.length + argument.length := by
  induction missing generalizing at_ seen pre bytes with
  | zero =>
    rw [seekLines, Extent.known.injEq, Nat.add_sub_cancel_left] at h
    exact ⟨[], bytes, rfl, .noLines, h.symm⟩
  | succ missing ih =>
    rcases seekLines_succ_cases f body missing seen pre bytes with
      ⟨-, g, hg⟩ | ⟨first, rest, hfirst, rfl, hseek⟩
    · rw [hg] at h
      cases h
    · rw [hseek] at h
      obtain ⟨lines, rest, rfl, hlines, rfl⟩ := ih (at_ + first.length) (pre ++ first) h
      refine ⟨first ++ lines, rest, (List.append_assoc ..).symm, .line hfirst hlines, ?_⟩
      rw [List.length_append, List.length_append, Nat.add_assoc]

/-- Lines that are missing can be written. -/
theorem exists_argument_of_seekLines (at_ : Nat) {body missing seen : Nat} (pre : List UInt8)
    (h : seekLines f body (pre ++ bytes) missing seen (body + pre.length) = .pending g) :
    ∃ more, Argument (.lines missing) at_ (bytes ++ more) := by
  induction missing generalizing at_ seen pre bytes with
  | zero => cases h
  | succ missing ih =>
    rcases seekLines_succ_cases f body missing seen pre bytes with
      ⟨hnone, -⟩ | ⟨first, rest, hfirst, rfl, hseek⟩
    · refine ⟨[0x0A] ++ List.replicate missing 0x0A, ?_⟩
      rw [← List.append_assoc]
      exact .line ⟨bytes, hnone, rfl⟩ (argument_replicate_feed missing _)
    · rw [hseek] at h
      obtain ⟨more, hmore⟩ := ih (at_ + first.length) (pre ++ first) h
      refine ⟨more, ?_⟩
      rw [List.append_assoc]
      exact .line hfirst hmore

-- ---------------------------------------------------------------------------
-- Arguments
-- ---------------------------------------------------------------------------

/-- A count that is there is in front of what it counts. -/
theorem exists_body_of_take? {width : Nat} {count rest' : List UInt8}
    (h : take? width (front ++ rest) = some (count, rest')) (hlength : front.length = width + n) :
    ∃ body, front = count ++ body ∧ count.length = width ∧ body.length = n := by
  obtain ⟨hbytes, hcount⟩ := take?_eq_some_iff.1 h
  have hle : count.length ≤ front.length := by omega
  obtain ⟨body, rfl⟩ := List.prefix_of_prefix_length_le
    (hbytes ▸ List.prefix_append count rest') (List.prefix_append front rest) hle
  rw [List.length_append] at hlength
  exact ⟨body, rfl, hcount, by omega⟩

/-- An argument whose extent is known, and which is there, is an argument. -/
theorem argument_of_extent (h : extent { pos := at_ } bytes layout = .known n)
    (htake : take? n bytes = some (front, rest)) : Argument layout (at_ + 1) front := by
  obtain ⟨rfl, hlength⟩ := take?_eq_some_iff.1 htake
  cases layout with
  | fixed k =>
    rw [extent, Extent.known.injEq] at h
    exact .fixed (hlength.trans h.symm)
  | counted width =>
    simp only [extent] at h
    split at h
    · cases h
    · rename_i count rest' hcount
      split at h
      · rename_i hlimit
        obtain rfl := Extent.known.inj h
        obtain ⟨body, rfl, hwidth, hbody⟩ := exists_body_of_take? hcount hlength
        exact .counted hwidth hbody (by omega)
      · cases h
  | signedCounted =>
    simp only [extent] at h
    split at h
    · cases h
    · rename_i count rest' hcount
      split at h
      · rename_i hpositive
        obtain rfl := Extent.known.inj h
        obtain ⟨body, rfl, hwidth, hbody⟩ := exists_body_of_take? hcount hlength
        exact .signedCounted hwidth hpositive hbody
      · cases h
  | lines k =>
    rw [extent, Nat.sub_zero, Nat.max_eq_right (Nat.zero_le _)] at h
    obtain ⟨argument, rest', hbytes, hargument, hn⟩ :=
      argument_of_seekLines (at_ + 1) [] h
    rw [List.length_nil, Nat.zero_add] at hn
    obtain ⟨rfl, -⟩ := List.append_inj hbytes (hlength.trans hn)
    exact hargument

/-- The rest of an argument whose extent is known can be written. -/
theorem exists_argument_of_known (h : extent { pos := at_ } bytes layout = .known n)
    (hle : bytes.length ≤ n) : ∃ more, Argument layout (at_ + 1) (bytes ++ more) := by
  let more : List UInt8 := List.replicate (n - bytes.length) 0
  have hlength : (bytes ++ more).length = n := by
    rw [List.length_append, List.length_replicate, Nat.add_sub_cancel' hle]
  have htake : take? n (bytes ++ more) = some (bytes ++ more, []) :=
    take?_eq_some_iff.2 ⟨(List.append_nil _).symm, hlength⟩
  exact ⟨more, argument_of_extent (extent_known_append h more) htake⟩

/-- The rest of a count that is cut off can be written, so that it counts no more than
    it does so far. -/
theorem exists_count {width : Nat} (h : take? width bytes = none) :
    ∃ more, take? width (bytes ++ more) = some (bytes ++ more, []) ∧
      littleEndian (bytes ++ more) < Nat.pow 256 (width - 1) := by
  have hshort := take?_eq_none_iff.1 h
  let more : List UInt8 := List.replicate (width - bytes.length) 0
  have hlength : (bytes ++ more).length = width := by
    rw [List.length_append, List.length_replicate, Nat.add_sub_cancel' (Nat.le_of_lt hshort)]
  refine ⟨more, take?_eq_some_iff.2 ⟨(List.append_nil _).symm, hlength⟩, ?_⟩
  rw [littleEndian_append_zeros]
  exact Nat.lt_of_lt_of_le (littleEndian_lt bytes) (Nat.pow_le_pow_right (by decide) (by omega))

/-- An argument whose end has not been seen has one, if there is room for what it counts. -/
theorem exists_argument_of_pending (h : extent { pos := at_ } bytes layout = .pending g)
    (hsmall : layout.Small) (hroom : at_ < bufferLimit) :
    ∃ more, Argument layout (at_ + 1) (bytes ++ more) := by
  -- a count is finished first, and what it counts is written behind it
  have hfinish : ∀ more n, extent { pos := at_ } (bytes ++ more) layout = .known n →
      (bytes ++ more).length ≤ n → ∃ more, Argument layout (at_ + 1) (bytes ++ more) := by
    intro more n hknown hle
    obtain ⟨rest, hargument⟩ := exists_argument_of_known hknown hle
    exact ⟨more ++ rest, List.append_assoc bytes more rest ▸ hargument⟩
  cases layout with
  | fixed k => cases h
  | counted width =>
    simp only [extent] at h
    split at h
    · rename_i hcount
      obtain ⟨more, hmore, hlt⟩ := exists_count hcount
      have hlength := (take?_eq_some_iff.1 hmore).2
      have hwidth : width ≤ 8 := hsmall
      have hpow : Nat.pow 256 (width - 1) ≤ Nat.pow 256 7 :=
        Nat.pow_le_pow_right (by decide) (Nat.sub_le_sub_right hwidth 1)
      have hspare : bufferLimit + 8 + Nat.pow 256 7 < offsetLimit := by decide
      have hlimit : at_ + 1 + (width + littleEndian (bytes ++ more)) < offsetLimit := by omega
      refine hfinish more (width + littleEndian (bytes ++ more)) ?_ (by omega)
      simp only [extent, hmore, if_pos hlimit]
    · split at h <;> cases h
  | signedCounted =>
    simp only [extent] at h
    split at h
    · rename_i hcount
      obtain ⟨more, hmore, hlt⟩ := exists_count hcount
      have hlength := (take?_eq_some_iff.1 hmore).2
      have hpositive : littleEndian (bytes ++ more) < signedCountLimit :=
        Nat.lt_of_lt_of_le hlt (by decide)
      refine hfinish more (4 + littleEndian (bytes ++ more)) ?_ (by omega)
      simp only [extent, hmore, if_pos hpositive]
    · split at h <;> cases h
  | lines k =>
    rw [extent, Nat.sub_zero, Nat.max_eq_right (Nat.zero_le _)] at h
    exact exists_argument_of_seekLines (at_ + 1) [] h

-- ---------------------------------------------------------------------------
-- Scans
-- ---------------------------------------------------------------------------

/-- A scan that ends has passed a frame. -/
theorem exists_frameFrom_of_complete (h : (scanFrom { pos := at_ } bytes).1 = .complete n) :
    ∃ frame rest, bytes = frame ++ rest ∧ FrameFrom at_ frame ∧ n = at_ + frame.length := by
  generalize hf : ({ pos := at_ } : Framer) = f at h
  fun_induction scanFrom f bytes generalizing at_ with
  | case1 | case2 | case3 | case4 | case5 => cases h
  | case6 f bytes layout k hext front rest htake _ hop =>
    subst hf
    obtain rfl := Framing.complete.inj h
    obtain rfl := Option.some.inj (ofOpcode?_stop.symm.trans hop)
    obtain rfl := Extent.known.inj hext
    exact ⟨[stop], bytes, rfl, .stop, rfl⟩
  | case7 f op bytes layout hop k hext front rest htake _ hstop ih =>
    subst hf
    obtain ⟨frame, rest', rfl, hframe, rfl⟩ := ih rfl h
    obtain ⟨rfl, rfl⟩ := take?_eq_some_iff.1 htake
    refine ⟨op :: (front ++ frame), rest', by simp, ?_, ?_⟩
    · exact .instruction hstop hop (argument_of_extent hext htake) hframe
    · simp only [List.length_cons, List.length_append]
      omega

/-- An opcode whose argument can be written is the beginning of a frame. -/
theorem exists_frameFrom_of_argument {op : UInt8} (hop : Layout.ofOpcode? op = some layout)
    (hlayout : layout ≠ .fixed 0) (h : ∃ more, Argument layout (at_ + 1) (bytes ++ more)) :
    ∃ more, FrameFrom at_ (op :: bytes ++ more) := by
  obtain ⟨more, hargument⟩ := h
  have hstop : op ≠ stop := by
    rintro rfl
    exact hlayout (Option.some.inj (hop.symm.trans ofOpcode?_stop))
  refine ⟨more ++ [stop], ?_⟩
  rw [List.cons_append, ← List.append_assoc]
  exact .instruction hstop hop hargument .stop

/-- Bytes on which a scan waits are the beginning of a frame. -/
theorem exists_frameFrom_of_incomplete (h : (scanFrom { pos := at_ } bytes).1 = .incomplete)
    (hroom : at_ + bytes.length ≤ bufferLimit) : ∃ more, FrameFrom at_ (bytes ++ more) := by
  generalize hf : ({ pos := at_ } : Framer) = f at h
  fun_induction scanFrom f bytes generalizing at_ with
  | case1 => exact ⟨[stop], .stop⟩
  | case2 | case4 | case6 => cases h
  | case3 f op bytes layout hop g hext =>
    subst hf
    rw [List.length_cons] at hroom
    refine exists_frameFrom_of_argument hop ?_ (exists_argument_of_pending hext
      (Layout.small_of_ofOpcode? hop) (by omega))
    rintro rfl
    cases hext
  | case5 f op bytes layout hop k hext htake =>
    subst hf
    have hshort := take?_eq_none_iff.1 htake
    refine exists_frameFrom_of_argument hop ?_ (exists_argument_of_known hext (Nat.le_of_lt hshort))
    rintro rfl
    obtain rfl := Extent.known.inj hext
    exact Nat.not_lt_zero _ hshort
  | case7 f op bytes layout hop k hext front rest htake _ hstop ih =>
    subst hf
    obtain ⟨rfl, rfl⟩ := take?_eq_some_iff.1 htake
    simp only [List.length_cons, List.length_append] at hroom
    obtain ⟨more, hframe⟩ := ih (by simp only; omega) rfl h
    refine ⟨more, ?_⟩
    rw [List.cons_append, List.append_assoc]
    exact .instruction hstop hop (argument_of_extent hext htake) hframe

end Framer

-- ---------------------------------------------------------------------------
-- Fresh framers
-- ---------------------------------------------------------------------------

namespace Framing

variable {buffer frame : List UInt8} {n : Nat}

theorem of_eq_scanFrom (buffer : List UInt8) :
    of buffer = (Framer.scanFrom { pos := 0 } buffer).1 := by
  rw [of, Framer.scan, List.drop_zero]

/-- A pickle is complete where a frame ends. -/
theorem of_eq_complete_iff : of buffer = .complete n ↔ n ≤ buffer.length ∧ Frame (buffer.take n) := by
  constructor
  · intro h
    rw [of_eq_scanFrom] at h
    obtain ⟨frame, rest, rfl, hframe, rfl⟩ := Framer.exists_frameFrom_of_complete h
    rw [Nat.zero_add, List.take_left]
    exact ⟨(List.prefix_append frame rest).length_le, hframe⟩
  · rintro ⟨hle, hframe⟩
    rw [of_frame hframe (List.take_prefix n buffer), List.length_take_of_le hle]

/-- A buffer on which a framer waits is the beginning of a frame. -/
theorem exists_frame_of_incomplete (h : of buffer = .incomplete)
    (hmemory : buffer.length < bufferLimit) : ∃ more, Frame (buffer ++ more) := by
  rw [of_eq_scanFrom] at h
  exact Framer.exists_frameFrom_of_incomplete h (by omega)

end Framing

theorem Frame.unique {frame frame' buffer : List UInt8} (h : Frame frame) (hfront : frame <+: buffer)
    (h' : Frame frame') (hfront' : frame' <+: buffer) : frame' = frame := by
  have hlength : frame'.length = frame.length :=
    Framing.complete.inj ((Framing.of_frame h' hfront').symm.trans (Framing.of_frame h hfront))
  exact (List.prefix_of_prefix_length_le hfront' hfront hlength.le).eq_of_length hlength

/-- The answers of a fresh framer, by the grammar: how long the frame is that a buffer
    begins with, that some bytes would make it begin with one, or that none would. A
    buffer begins with one frame at most, and no part of a frame ends the pickle
    early, whatever bytes it ends in. -/
theorem Framing.of_eq_iff {buffer : List UInt8} (hmemory : buffer.length < bufferLimit) :
    (∀ n, of buffer = .complete n ↔ n ≤ buffer.length ∧ Frame (buffer.take n)) ∧
    (of buffer = .incomplete ↔ (∀ frame, frame <+: buffer → ¬ Frame frame) ∧
      ∃ more frame, frame <+: buffer ++ more ∧ Frame frame) ∧
    (of buffer = .invalid ↔ ∀ more frame, frame <+: buffer ++ more → ¬ Frame frame) ∧
    (∀ frame frame', frame <+: buffer → frame' <+: buffer → Frame frame → Frame frame' →
      frame' = frame) ∧
    ∀ frame part, Frame frame → part <+: frame → part ≠ frame → of part = .incomplete := by
  refine ⟨fun n => of_eq_complete_iff, ⟨fun h => ⟨?_, ?_⟩, ?_⟩, ⟨?_, ?_⟩, ?_, ?_⟩
  · intro frame hfront hframe
    rw [of_frame hframe hfront] at h
    cases h
  · obtain ⟨more, hframe⟩ := exists_frame_of_incomplete h hmemory
    exact ⟨more, _, List.prefix_rfl, hframe⟩
  · rintro ⟨hnone, more, frame, hfront, hframe⟩
    cases hanswer : of buffer with
    | incomplete => rfl
    | complete n => exact absurd (of_eq_complete_iff.1 hanswer).2 (hnone _ (List.take_prefix n buffer))
    | invalid =>
      have hlonger := of_longer (List.prefix_append buffer more) (by rw [hanswer]; nofun)
      rw [of_frame hframe hfront, hanswer] at hlonger
      cases hlonger
  · intro h more frame hfront hframe
    have hlonger := of_longer (List.prefix_append buffer more) (by rw [h]; nofun)
    rw [of_frame hframe hfront, h] at hlonger
    cases hlonger
  · intro hnone
    cases hanswer : of buffer with
    | invalid => rfl
    | incomplete =>
      obtain ⟨more, hframe⟩ := exists_frame_of_incomplete hanswer hmemory
      exact absurd hframe (hnone more _ List.prefix_rfl)
    | complete n =>
      have hfront : buffer.take n <+: buffer ++ [] :=
        (List.append_nil buffer).symm ▸ List.take_prefix n buffer
      exact absurd (of_eq_complete_iff.1 hanswer).2 (hnone [] _ hfront)
  · exact fun frame frame' hfront hfront' hframe hframe' => hframe.unique hfront hframe' hfront'
  · exact fun frame part hframe => of_part (of_frame hframe List.prefix_rfl)

/-- A string of two full stops with a byte behind its pickle, the same string cut off
    behind its first full stop, and a string that is longer than offsets can tell. -/
theorem Framing.of_eq_iff_strings :
    let whole : List UInt8 := [0x55, 0x02, 0x2E, 0x2E, 0x2E, 0x41]
    let cut : List UInt8 := [0x55, 0x02, 0x2E]
    let endless : List UInt8 := 0x8D :: List.replicate 8 0xFF
    (whole.length < bufferLimit ∧ of whole = .complete 5 ∧ Frame (whole.take 5)) ∧
      (cut.length < bufferLimit ∧ of cut = .incomplete ∧
        ∃ more frame, frame <+: cut ++ more ∧ Frame frame) ∧
      endless.length < bufferLimit ∧ of endless = .invalid ∧
        ∀ more frame, frame <+: endless ++ more → ¬ Frame frame := by
  intro whole cut endless
  have hwhole : of whole = .complete 5 := by cbv
  have hcut : of cut = .incomplete := by cbv
  have hendless : of endless = .invalid := by cbv
  refine ⟨⟨by decide, hwhole, ?_⟩, ⟨by decide, hcut, ?_⟩, by decide, hendless, ?_⟩
  · exact ((@of_eq_iff whole (by decide)).1 5 |>.1 hwhole).2
  · exact ((@of_eq_iff cut (by decide)).2.1.1 hcut).2
  · exact (@of_eq_iff endless (by decide)).2.2.1.1 hendless

end MetricIntake.Pickle
