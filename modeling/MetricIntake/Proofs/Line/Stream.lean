-- SUMMARY: What each line of a stream yields, read off its bytes, and how a stream is cut into lines.
import Mathlib.Data.List.Basic
import Mathlib.Data.List.Forall2
import MetricIntake.Line.Stream
import MetricIntake.Proofs.Text.Pieces
import MetricIntake.Proofs.Text.Utf8

/-!
# What lines yield

`Yields` is the meaning of a line in terms of its bytes and nothing else: no
scanner, no window, no order in which the checks are made. Every line yields
exactly one thing, or nothing.
-/

namespace MetricIntake.Line

/-! ## The meaning of a line -/

/-- A line and what is left of it without the carriage return at its end, if it has one. -/
inductive Body : List UInt8 → List UInt8 → Prop
  | returned {body : List UInt8} : Body (body ++ [0x0D]) body
  | plain {line : List UInt8} : line.getLast? ≠ some 0x0D → Body line line

/-- Only ASCII white space: tab, line feed, form feed, carriage return, space. -/
def Blank (bytes : List UInt8) : Prop :=
  ∀ b ∈ bytes, b ∈ ([0x09, 0x0A, 0x0C, 0x0D, 0x20] : List UInt8)

/-- What a line yields. Its carriage return counts for its length. -/
inductive Yields (max : Nat) : List UInt8 → List (Except DecodeError String) → Prop
  | tooLong {line : List UInt8} :
    max < line.length → Yields max line [.error (.lineTooLong max)]
  | blank {line body : List UInt8} :
    line.length ≤ max → Body line body → Blank body → Yields max line []
  | notUtf8 {line body : List UInt8} :
    line.length ≤ max → Body line body → ¬ Blank body → (∀ s, Utf8.encode s ≠ body) →
    Yields max line [.error .utf8]
  | decoded {line body : List UInt8} {s : String} :
    line.length ≤ max → Body line body → ¬ Blank body → Utf8.encode s = body →
    Yields max line [.ok s]

variable {max : Nat} {line body : List UInt8} {items : List (Except DecodeError String)}

theorem body_stripReturn (line : List UInt8) : Body line (stripReturn line) := by
  unfold stripReturn
  split
  · rename_i hlast
    have hline : line.dropLast ++ [0x0D] = line :=
      List.dropLast_append_getLast? _ hlast
    generalize line.dropLast = body at hline ⊢
    subst hline
    exact .returned
  · rename_i hlast
    exact .plain hlast

theorem Body.eq_stripReturn (h : Body line body) : body = stripReturn line := by
  cases h with
  | returned => simp [stripReturn, carriageReturn]
  | plain hlast => exact (if_neg hlast).symm

theorem isBlank_iff : isBlank body = true ↔ Blank body := by
  simp [isBlank, Text.isBlankByte, Blank, or_assoc]

/-- What a line of the stream yields is what its bytes say. -/
theorem yields_bounded? (max : Nat) (line : List UInt8) :
    Yields max line (bounded? max line).toList := by
  unfold bounded?
  split
  · rename_i hlong
    exact .tooLong hlong
  · rename_i hlong
    have hlen := Nat.not_lt.1 hlong
    have hbody := body_stripReturn line
    unfold item?
    simp only
    split
    · rename_i hblank
      exact .blank hlen hbody (isBlank_iff.1 hblank)
    · rename_i hblank
      have hblank := mt isBlank_iff.2 hblank
      unfold text
      cases htext : Utf8.text? (stripReturn line) with
      | some s => exact .decoded hlen hbody hblank (Utf8.text?_eq_some_iff.1 htext)
      | none =>
        refine .notUtf8 hlen hbody hblank ?_
        intro s hs
        rw [Utf8.text?_eq_some_iff.2 hs] at htext
        cases htext

/-- A line yields no more than one thing. -/
theorem Yields.eq_bounded? (h : Yields max line items) : items = (bounded? max line).toList := by
  cases h with
  | tooLong hlong => rw [bounded?, if_pos hlong, Option.toList_some]
  | blank hlen hbody hblank =>
    rw [bounded?, if_neg (Nat.not_lt.2 hlen), item?, ← hbody.eq_stripReturn]
    rw [if_pos (isBlank_iff.2 hblank), Option.toList_none]
  | notUtf8 hlen hbody hblank hnone =>
    have htext : Utf8.text? (stripReturn line) = none := by
      cases htext : Utf8.text? (stripReturn line) with
      | none => rfl
      | some s =>
        rw [← hbody.eq_stripReturn] at htext
        exact absurd (Utf8.text?_eq_some_iff.1 htext) (hnone s)
    rw [bounded?, if_neg (Nat.not_lt.2 hlen), item?, if_neg (mt isBlank_iff.1 (hbody.eq_stripReturn ▸ hblank)),
      text, htext, Option.toList_some]
  | decoded hlen hbody hblank htext =>
    have htext := Utf8.text?_eq_some_iff.2 htext
    rw [hbody.eq_stripReturn] at htext hblank
    rw [bounded?, if_neg (Nat.not_lt.2 hlen), item?, if_neg (mt isBlank_iff.1 hblank), text, htext,
      Option.toList_some]

/-- A stream yields what its lines yield, in order. -/
theorem ofStream_eq_iff {bytes : List UInt8} :
    ofStream max bytes = items ↔
      ∃ yields, List.Forall₂ (Yields max) (segments bytes) yields ∧ yields.flatten = items := by
  have hrel : Yields max = fun line items => (bounded? max line).toList = items := by
    funext line items
    refine propext ⟨fun h => h.eq_bounded?.symm, ?_⟩
    rintro rfl
    exact yields_bounded? max line
  have hyields : ∀ yields, List.Forall₂ (Yields max) (segments bytes) yields ↔
      (segments bytes).map (fun line => (bounded? max line).toList) = yields := by
    intro yields
    rw [hrel]
    exact List.forall₂_map_left_iff.symm.trans (by rw [List.forall₂_eq_eq_eq])
  simp only [hyields, exists_eq_left', ofStream, List.filterMap_eq_flatMap_toList, List.flatMap]

/-! ## Cutting a stream -/

/-- The items of a stream whose first line is known to be too long. -/
def ofOverlongStream (max : Nat) (bytes : List UInt8) : List (Except DecodeError String) :=
  .error (.lineTooLong max) :: (segments bytes).tail.filterMap (bounded? max)

theorem segments_append_feed (h : feed ∉ line) (rest : List UInt8) :
    segments (line ++ feed :: rest) = line :: segments rest :=
  List.splitOn_append_cons_self_of_not_mem h rest

/-- Bytes without a line feed lengthen the first line of what follows. -/
theorem segments_append (h : feed ∉ line) (rest : List UInt8) :
    segments (line ++ rest) = (segments rest).modifyHead (line ++ ·) :=
  Text.splitOn_append h rest

theorem filterMap_bounded?_cons (hlen : line.length ≤ max) (lines : List (List UInt8)) :
    (line :: lines).filterMap (bounded? max) =
      (item? line).toList ++ lines.filterMap (bounded? max) := by
  have hitem : bounded? max line = item? line := if_neg (Nat.not_lt.2 hlen)
  rw [List.filterMap_cons, hitem]
  cases item? line with
  | none => rfl
  | some item => rfl

theorem ofStream_append_feed (h : feed ∉ line) (hlen : line.length ≤ max) (rest : List UInt8) :
    ofStream max (line ++ feed :: rest) = (item? line).toList ++ ofStream max rest := by
  rw [ofStream, segments_append_feed h, filterMap_bounded?_cons hlen, ofStream]

/-- A stream that ends within the bound and without a line feed is one line. -/
theorem ofStream_of_not_mem (h : feed ∉ line) (hlen : line.length ≤ max) :
    ofStream max line = (item? line).toList := by
  rw [ofStream, segments, List.splitOn_eq_singleton h, filterMap_bounded?_cons hlen,
    List.filterMap_nil, List.append_nil]

/-- More bytes than the bound without a line feed make the first line too long. -/
theorem ofStream_of_overlong (h : feed ∉ line) (hlen : max < line.length) (rest : List UInt8) :
    ofStream max (line ++ rest) = ofOverlongStream max (line ++ rest) := by
  obtain ⟨first, lines, hrest⟩ := List.exists_cons_of_ne_nil (List.splitOn_ne_nil feed rest)
  have hfirst : bounded? max (line ++ first) = some (.error (.lineTooLong max)) := by
    apply if_pos
    rw [List.length_append]
    omega
  rw [ofStream, ofOverlongStream, segments_append h, segments, hrest]
  simp [hfirst]

theorem ofOverlongStream_append_feed (h : feed ∉ line) (rest : List UInt8) :
    ofOverlongStream max (line ++ feed :: rest) =
      .error (.lineTooLong max) :: ofStream max rest := by
  rw [ofOverlongStream, segments_append_feed h, List.tail_cons, ofStream]

/-- The bytes of a line that is too long do not matter. -/
theorem ofOverlongStream_append (h : feed ∉ line) (rest : List UInt8) :
    ofOverlongStream max (line ++ rest) = ofOverlongStream max rest := by
  rw [ofOverlongStream, segments_append h, List.tail_modifyHead, ofOverlongStream]

end MetricIntake.Line
