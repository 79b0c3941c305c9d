-- SUMMARY: A datagram against its segments read as they stand: what is taken off or set aside is blank, and costs neither a point nor any other error.
import Mathlib.Data.List.Induction
import MetricIntake.Line.Datagram
import MetricIntake.Proofs.Line.Point

/-!
# Datagrams, segment by segment

Before a line of a datagram is read, the carriage return at its end is taken off,
and blank lines are set aside. `Reads` does neither: it reads the bytes between two
line feeds as they stand. The difference is one item for each blank segment, and it
is always the same one.
-/

namespace MetricIntake

namespace Line

variable {segment body : List UInt8} {item : Except DecodeError Point}

/-- What a segment comes to as it stands: the bytes have to be those of a text, and the
    text is read as a point. -/
inductive Reads : List UInt8 → Except DecodeError Point → Prop
  | text {s : String} : Reads (Utf8.encode s) (Point.ofLine s)
  | notUtf8 {segment : List UInt8} : (∀ s, Utf8.encode s ≠ segment) → Reads segment (.error .utf8)

/-- A segment read as it stands. -/
def point (segment : List UInt8) : Except DecodeError Point :=
  text segment >>= Point.ofLine

theorem text_encode (s : String) : text (Utf8.encode s) = .ok s := by
  rw [text, Utf8.text?_eq_some_iff.2 rfl]

theorem text_of_not_utf8 (h : ∀ s, Utf8.encode s ≠ segment) : text segment = .error .utf8 := by
  unfold text
  split
  · rename_i s hs
    exact absurd (Utf8.text?_eq_some_iff.1 hs) (h s)
  · rfl

theorem reads_point (segment : List UInt8) : Reads segment (point segment) := by
  by_cases h : ∃ s, Utf8.encode s = segment
  · obtain ⟨s, rfl⟩ := h
    rw [point, text_encode]
    exact .text
  · have hnone : ∀ s, Utf8.encode s ≠ segment := fun s hs => h ⟨s, hs⟩
    rw [point, text_of_not_utf8 hnone]
    exact .notUtf8 hnone

theorem Reads.eq_point (h : Reads segment item) : item = point segment := by
  cases h with
  | text => rw [point, text_encode]; rfl
  | notUtf8 hnone => rw [point, text_of_not_utf8 hnone]; rfl

/-! ## The carriage return -/

/-- A segment and its body come to the same. -/
theorem Body.reads_iff (h : Body segment body) : Reads segment item ↔ Reads body item := by
  have hwritten : (∃ s, Utf8.encode s = segment) ↔ ∃ s, Utf8.encode s = body := by
    constructor
    · rintro ⟨s, hs⟩
      obtain ⟨s', hs', -⟩ := (h.exists_ofLine_iff _).1 ⟨s, hs, rfl⟩
      exact ⟨s', hs'⟩
    · rintro ⟨s, hs⟩
      obtain ⟨s', hs', -⟩ := (h.exists_ofLine_iff _).2 ⟨s, hs, rfl⟩
      exact ⟨s', hs'⟩
  constructor
  · rintro (_ | hnone)
    · obtain ⟨s, rfl, hs⟩ := (h.exists_ofLine_iff _).1 ⟨_, rfl, rfl⟩
      exact hs ▸ .text
    · exact .notUtf8 fun s hs => (hwritten.2 ⟨s, hs⟩).elim hnone
  · rintro (_ | hnone)
    · obtain ⟨s, rfl, hs⟩ := (h.exists_ofLine_iff _).2 ⟨_, rfl, rfl⟩
      exact hs ▸ .text
    · exact .notUtf8 fun s hs => (hwritten.1 ⟨s, hs⟩).elim hnone

theorem point_stripReturn (segment : List UInt8) : point (stripReturn segment) = point segment :=
  ((body_stripReturn segment).reads_iff.1 (reads_point segment)).eq_point.symm

theorem isBlank_stripReturn (segment : List UInt8) :
    isBlank (stripReturn segment) = isBlank segment := by
  rw [Bool.eq_iff_iff, isBlank_iff, isBlank_iff, (body_stripReturn segment).blank_iff]

/-- A segment yields nothing if it is blank, and what it comes to as it stands otherwise. -/
theorem item?_bind_ofLine (segment : List UInt8) :
    (item? segment).map (· >>= Point.ofLine) =
      if isBlank segment then none else some (point segment) := by
  unfold item?
  simp only [isBlank_stripReturn]
  split
  · rfl
  · rw [Option.map_some, ← point_stripReturn, point]

/-! ## Blank segments -/

instance (segment : List UInt8) : Decidable (Blank segment) :=
  decidable_of_iff (isBlank segment = true) isBlank_iff

theorem decide_blank (segment : List UInt8) : decide (Blank segment) = isBlank segment := by
  rw [Bool.eq_iff_iff, decide_eq_true_iff, isBlank_iff]

/-- The blank bytes stand for blank characters. -/
theorem exists_blank_char {b : UInt8} (h : b ∈ ([0x09, 0x0A, 0x0C, 0x0D, 0x20] : List UInt8)) :
    b.toNat < 0x80 ∧ ∃ c : Char, c.toNat = b.toNat ∧ Text.isBlank c = true := by
  simp only [List.mem_cons, List.not_mem_nil, or_false] at h
  rcases h with rfl | rfl | rfl | rfl | rfl
  · exact ⟨by decide, '\t', rfl, rfl⟩
  · exact ⟨by decide, '\n', rfl, rfl⟩
  · exact ⟨by decide, '\x0c', rfl, rfl⟩
  · exact ⟨by decide, '\r', rfl, rfl⟩
  · exact ⟨by decide, ' ', rfl, rfl⟩

theorem exists_text_of_blank (h : Blank segment) :
    ∃ s, Utf8.encode s = segment ∧ Text.fields s.toList = [] := by
  induction segment using List.reverseRecOn with
  | nil => exact ⟨"", rfl, Text.fields_nil⟩
  | append_singleton front b ih =>
    obtain ⟨s, hs, hfields⟩ := ih fun b hb => h b (List.mem_append_left _ hb)
    obtain ⟨hb, c, hc, hblank⟩ := exists_blank_char (h b (by simp))
    refine ⟨s ++ String.singleton c, (Utf8.encode_eq_append_iff hb hc).2 ⟨s, hs, rfl⟩, ?_⟩
    rw [String.toList_append, String.toList_singleton,
      Text.fields_append_blanks _ (List.forall_mem_singleton.2 hblank), hfields]

/-- A blank segment is a text without fields. -/
theorem reads_of_blank (h : Blank segment) : Reads segment (.error (.fieldCount 0)) := by
  obtain ⟨s, rfl, hfields⟩ := exists_text_of_blank h
  have hpoint : Point.ofLine s = .error (.fieldCount 0) := by
    rw [Point.ofLine, hfields]
    rfl
  exact hpoint ▸ .text

end Line

namespace Datagram

open Line (Blank Reads)

/-- An item that stands for a text without fields. -/
def isFieldless : Except DecodeError Point → Bool
  | .error (.fieldCount 0) => true
  | _ => false

/-- A datagram yields what its segments come to as they stand, the blank ones aside. -/
theorem points_eq (payload : List UInt8) :
    points payload = ((Line.segments payload).filter (¬ Blank ·)).map Line.point := by
  rw [points, List.map_filterMap, ← List.filterMap_eq_map, List.filterMap_filter]
  refine List.filterMap_congr fun segment _ => ?_
  rw [Line.item?_bind_ofLine, decide_not, Line.decide_blank]
  cases Line.isBlank segment <;> rfl

/-- A datagram yields what its segments come to as they stand, in order, less the items of
    the segments that hold ASCII blanks only, and each of these items says that there are no
    fields. Of the other items, and so of the points and of all errors with another cause,
    the datagram yields every one and no more. -/
theorem points_of_segments (payload : List UInt8) :
    ∃ items, List.Forall₂ Reads (Line.segments payload) items ∧
      points payload =
        (((Line.segments payload).zip items).filter (¬ Blank ·.1)).map Prod.snd ∧
      (∀ segment item, (segment, item) ∈ (Line.segments payload).zip items → Blank segment →
        item = .error (.fieldCount 0)) ∧
      (points payload).filter (!isFieldless ·) = items.filter (!isFieldless ·) := by
  have hreads :
      List.Forall₂ Reads (Line.segments payload) ((Line.segments payload).map Line.point) := by
    rw [List.forall₂_map_right_iff]
    exact List.forall₂_same.2 fun segment _ => Line.reads_point segment
  have hblank : ∀ segment, Blank segment → Line.point segment = .error (.fieldCount 0) :=
    fun segment h => (Line.reads_of_blank h).eq_point.symm
  refine ⟨(Line.segments payload).map Line.point, hreads, ?_, ?_, ?_⟩
  · rw [points_eq, ← List.map_prod_left_eq_zip, List.filter_map, List.map_map]
    rfl
  · intro segment item hmem h
    rw [← List.map_prod_left_eq_zip] at hmem
    obtain ⟨segment', -, hpair⟩ := List.mem_map.1 hmem
    obtain ⟨rfl, rfl⟩ := Prod.mk.inj hpair
    exact hblank segment' h
  · rw [points_eq, List.filter_map, List.filter_map, List.filter_filter]
    congr 1
    refine List.filter_congr fun segment _ => ?_
    by_cases h : Blank segment
    · simp [h, hblank segment h, isFieldless]
    · simp [h]

-- a vertical tab is no ASCII blank, so its segment is not set aside
example :
    points [0x0D, 0x0A, 0x0B, 0x0A, 0xFF, 0x0D] = [.error (.fieldCount 0), .error .utf8] := by
  decide +kernel

end Datagram
end MetricIntake
