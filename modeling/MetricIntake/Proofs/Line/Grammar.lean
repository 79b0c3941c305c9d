-- SUMMARY: Which lines are points, what every other line is refused for, and that the extent of blanks makes no difference.
import Mathlib.Data.List.Basic
import MetricIntake.Line.Point
import MetricIntake.Proofs.Text.Fields

/-!
# The language of lines

A line is a point if it is written as three fields, the second of them a float and
the third an integer that is a timestamp. Any other line is refused, and the fields
alone tell what for. Number literals and the calendar are taken as they are.
-/

namespace MetricIntake.Point

open MetricIntake.Text (Blanks Runs ThreeFields)

/-- Why a text of these fields is no point. What is wrong with a field shows only if
    nothing is wrong with the fields before it. -/
inductive Refused : List (List Char) → DecodeError → Prop
  | fieldCount {runs : List (List Char)} :
    runs.length ≠ 3 → Refused runs (.fieldCount runs.length)
  | value {name value timestamp : List Char} :
    Literal.readFloat value = none →
    Refused [name, value, timestamp] (.value (String.ofList value))
  | timestamp {name value timestamp : List Char} {x : Binary64} {fault : Literal.IntegerFault} :
    Literal.readFloat value = some x → Literal.readInt64 timestamp = .error fault →
    Refused [name, value, timestamp] (.timestamp (String.ofList timestamp) fault)
  | range {name value timestamp : List Char} {x : Binary64} {seconds : Int} :
    Literal.readFloat value = some x → Literal.readInt64 timestamp = .ok seconds →
    ¬ (Timestamp.first ≤ seconds ∧ seconds ≤ Timestamp.last) →
    Refused [name, value, timestamp] (.timestampRange seconds)

variable {line : String} {value timestamp : List Char} {runs : List (List Char)}
  {p : Point} {e : DecodeError}

/-! ## Reading fields -/

/-- A point is read off its fields. -/
theorem ofLine_of_fields (hfields : Text.fields line.toList = [p.name.toList, value, timestamp])
    (hvalue : Literal.readFloat value = some p.value)
    (htimestamp : Literal.readInt64 timestamp = .ok p.timestamp.seconds) : ofLine line = .ok p := by
  simp [ofLine, hfields, readValue, hvalue, readSeconds, htimestamp, Except.mapError, bind,
    Except.bind, ofUnix]

theorem ofLine_of_refused (hfields : Text.fields line.toList = runs) (h : Refused runs e) :
    ofLine line = .error e := by
  cases h with
  | fieldCount hlength =>
    unfold ofLine
    split
    · rename_i hthree
      rw [← hfields, hthree] at hlength
      exact absurd rfl hlength
    · rw [hfields]
  | value hvalue => simp [ofLine, hfields, readValue, hvalue, bind, Except.bind]
  | timestamp hvalue htimestamp =>
    simp [ofLine, hfields, readValue, hvalue, readSeconds, htimestamp, Except.mapError, bind,
      Except.bind]
  | range hvalue htimestamp hrange =>
    simp [ofLine, hfields, readValue, hvalue, readSeconds, htimestamp, Except.mapError, bind,
      Except.bind, ofUnix, Timestamp.ofSeconds?, hrange]

/-- Fields are those of a point, or there is a reason why not. -/
theorem exists_point_or_refused (runs : List (List Char)) :
    (∃ (p : Point) (value timestamp : List Char), runs = [p.name.toList, value, timestamp] ∧
      Literal.readFloat value = some p.value ∧
      Literal.readInt64 timestamp = .ok p.timestamp.seconds) ∨ ∃ e, Refused runs e := by
  by_cases hlength : runs.length = 3
  · obtain ⟨name, value, timestamp, rfl⟩ := List.length_eq_three.1 hlength
    cases hvalue : Literal.readFloat value with
    | none => exact .inr ⟨_, .value hvalue⟩
    | some x =>
      cases htimestamp : Literal.readInt64 timestamp with
      | error fault => exact .inr ⟨_, .timestamp hvalue htimestamp⟩
      | ok seconds =>
        by_cases hrange : Timestamp.first ≤ seconds ∧ seconds ≤ Timestamp.last
        · refine .inl ⟨⟨String.ofList name, ⟨seconds, hrange.1, hrange.2⟩, x⟩, value, timestamp, ?_,
            hvalue, htimestamp⟩
          rw [String.toList_ofList]
        · exact .inr ⟨_, .range hvalue htimestamp hrange⟩
  · exact .inr ⟨_, .fieldCount hlength⟩

theorem ofLine_eq_ok_iff :
    ofLine line = .ok p ↔ ∃ value timestamp,
      Text.fields line.toList = [p.name.toList, value, timestamp] ∧
      Literal.readFloat value = some p.value ∧
      Literal.readInt64 timestamp = .ok p.timestamp.seconds := by
  constructor
  · intro hok
    rcases exists_point_or_refused (Text.fields line.toList) with
      ⟨q, value, timestamp, hfields, hvalue, htimestamp⟩ | ⟨e, hrefused⟩
    · have hok' := ofLine_of_fields hfields hvalue htimestamp
      obtain rfl : q = p := Except.ok.inj (hok'.symm.trans hok)
      exact ⟨value, timestamp, hfields, hvalue, htimestamp⟩
    · cases (ofLine_of_refused rfl hrefused).symm.trans hok
  · rintro ⟨value, timestamp, hfields, hvalue, htimestamp⟩
    exact ofLine_of_fields hfields hvalue htimestamp

theorem ofLine_eq_error_iff : ofLine line = .error e ↔ Refused (Text.fields line.toList) e := by
  constructor
  · intro herror
    rcases exists_point_or_refused (Text.fields line.toList) with
      ⟨q, value, timestamp, hfields, hvalue, htimestamp⟩ | ⟨e', hrefused⟩
    · cases (ofLine_of_fields hfields hvalue htimestamp).symm.trans herror
    · obtain rfl : e' = e := Except.error.inj ((ofLine_of_refused rfl hrefused).symm.trans herror)
      exact hrefused
  · exact ofLine_of_refused rfl

/-- A line is read off its fields. -/
theorem ofLine_congr {line' : String} (h : Text.fields line'.toList = Text.fields line.toList) :
    ofLine line' = ofLine line := by
  rw [ofLine, h, ofLine]

/-! ## Reading lines -/

/-- A line is a point if and only if it is written as three fields that give the name, the
    value and the timestamp of the point. Of any other line the fields, which it has in one
    way only, tell why it is refused. Blanks may be replaced by other blanks wherever they
    are, and added at both ends. -/
theorem ofLine_iff (line : String) :
    (∀ p, ofLine line = .ok p ↔ ∃ value timestamp,
      ThreeFields line.toList p.name.toList value timestamp ∧
      Literal.readFloat value = some p.value ∧
      Literal.readInt64 timestamp = .ok p.timestamp.seconds) ∧
    (∃ runs, (∀ runs', Runs line.toList runs' ↔ runs' = runs) ∧
      ∀ e, ofLine line = .error e ↔ Refused runs e) ∧
    (∀ front w w' behind : String, Blanks w.toList → w ≠ "" → Blanks w'.toList → w' ≠ "" →
      line = front ++ w ++ behind → ofLine (front ++ w' ++ behind) = ofLine line) ∧
    ∀ w : String, Blanks w.toList → ofLine (w ++ line) = ofLine line ∧
      ofLine (line ++ w) = ofLine line := by
  refine ⟨fun p => ?_, ⟨Text.fields line.toList, fun runs' => ?_, fun e => ofLine_eq_error_iff⟩, ?_,
    fun w hw => ⟨ofLine_congr ?_, ofLine_congr ?_⟩⟩
  · simp only [ofLine_eq_ok_iff, Text.fields_eq_three_iff]
  · exact Text.runs_iff.trans eq_comm
  · rintro front w w' behind hw hne hw' hne' rfl
    have hdivided : ∀ w : String, Blanks w.toList → w ≠ "" →
        Text.fields (front ++ w ++ behind).toList =
          Text.fields front.toList ++ Text.fields behind.toList := by
      intro w hw hne
      rw [String.toList_append, String.toList_append, List.append_assoc]
      exact Text.fields_append_blanks_append _ _ hw (mt String.toList_eq_nil_iff.1 hne)
    exact ofLine_congr ((hdivided w' hw' hne').trans (hdivided w hw hne).symm)
  · rw [String.toList_append, Text.fields_blanks_append _ hw]
  · rw [String.toList_append, Text.fields_append_blanks _ hw]

end MetricIntake.Point
