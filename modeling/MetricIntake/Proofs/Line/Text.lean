-- SUMMARY: A point is read back from its text if and only if its name is one field; with any other name the text is refused or gives another name.
import MetricIntake.Proofs.Line.Grammar
import MetricIntake.Proofs.Number.Text

/-!
# The text of a point

A point is written as its name, its value and its seconds, with a space between them.
Value and seconds are one field each and are read back as what they are. The name is
written as it is, so it may be of any number of fields: one makes three, and the name
comes back without the blanks around it.
-/

namespace MetricIntake.Point

open MetricIntake.Text (IsField)

variable {p : Point} {field : List Char}

/-- The same name, the same second and the same value, as far as the value is a number. -/
structure Same (p q : Point) : Prop where
  name : p.name = q.name
  timestamp : p.timestamp = q.timestamp
  value : p.value.Same q.value

/-- The calendar lies within the integers of 64 bits. -/
theorem readInt64_seconds (t : Timestamp) :
    Literal.readInt64 (toString t.seconds).toList = .ok t.seconds := by
  have hfirst := t.first_le
  have hlast := t.le_last
  have hbound : (Literal.int64Bound : Int) = 9223372036854775808 := rfl
  unfold Timestamp.first at hfirst
  unfold Timestamp.last at hlast
  exact Literal.readInt64_toString (by omega) (by omega)

/-- The fields of a point: those of its name, the value and the seconds. -/
theorem fields_text (p : Point) :
    Text.fields p.text.toList = Text.fields p.name.toList ++
      [p.value.text.toList, (toString p.timestamp.seconds).toList] := by
  have hspace : Text.Blanks [' '] := List.forall_mem_singleton.2 rfl
  have hne : [' '] ≠ [] := List.cons_ne_nil _ _
  have htext : p.text.toList = p.name.toList ++ ([' '] ++ (p.value.text.toList ++
      ([' '] ++ (toString p.timestamp.seconds).toList))) := by
    simp [text]
  rw [htext, Text.fields_append_blanks_append _ _ hspace hne,
    Text.fields_append_blanks_append _ _ hspace hne, Text.fields_eq_self p.value.isField_text,
    Text.fields_eq_self (Literal.isField_toString _)]
  rfl

/-- With a name of one field the text of a point is a point, and only the name may have
    changed: it is this field. -/
theorem exists_ofLine_text (h : Text.fields p.name.toList = [field]) :
    ∃ x, ofLine p.text = .ok ⟨String.ofList field, p.timestamp, x⟩ ∧ p.value.Same x := by
  obtain ⟨x, hread, hsame⟩ := p.value.exists_readFloat_text
  refine ⟨x, ofLine_of_fields ?_ hread (readInt64_seconds p.timestamp), hsame⟩
  rw [fields_text, h, String.toList_ofList]
  rfl

/-- With a name of no field, or of several, the text of a point is refused for the number
    of its fields. -/
theorem ofLine_text_of_length_ne (h : (Text.fields p.name.toList).length ≠ 1) :
    ofLine p.text = .error (.fieldCount ((Text.fields p.name.toList).length + 2)) := by
  have hlength : (Text.fields p.text.toList).length = (Text.fields p.name.toList).length + 2 := by
    rw [fields_text, List.length_append]
    rfl
  rw [ofLine_eq_error_iff, ← hlength]
  exact .fieldCount (by omega)

/-- A point is read back from its text if and only if its name is one field. With any other
    name the text is refused or gives a point of another name. -/
theorem ofLine_text (p : Point) :
    ((∃ q, ofLine p.text = .ok q ∧ p.Same q) ↔ IsField p.name.toList) ∧
      (¬ IsField p.name.toList →
        (∃ e, ofLine p.text = .error e) ∨ ∃ q, ofLine p.text = .ok q ∧ q.name ≠ p.name) := by
  have hother (hname : ¬ IsField p.name.toList) :
      (∃ e, ofLine p.text = .error e) ∨ ∃ q, ofLine p.text = .ok q ∧ q.name ≠ p.name := by
    by_cases hlength : (Text.fields p.name.toList).length = 1
    · obtain ⟨field, hfield⟩ := List.length_eq_one_iff.1 hlength
      obtain ⟨x, hok, -⟩ := exists_ofLine_text hfield
      refine .inr ⟨_, hok, fun (heq : String.ofList field = p.name) => hname ?_⟩
      rw [← Text.fields_eq_self_iff, hfield, ← heq, String.toList_ofList]
    · exact .inl ⟨_, ofLine_text_of_length_ne hlength⟩
  refine ⟨⟨?_, fun hname => ?_⟩, hother⟩
  · rintro ⟨q, hok, hsame⟩
    by_contra hname
    rcases hother hname with ⟨e, herror⟩ | ⟨q', hok', hne⟩
    · cases herror.symm.trans hok
    · obtain rfl : q' = q := Except.ok.inj (hok'.symm.trans hok)
      exact hne hsame.name.symm
  · obtain ⟨x, hok, hsame⟩ := exists_ofLine_text (Text.fields_eq_self hname)
    exact ⟨_, hok, String.ofList_toList.symm, rfl, hsame⟩

-- the blank in front of the name is lost, and with NaN its sign
example :
    ofLine (text ⟨" cpu", ⟨-1, by decide, by decide⟩, .nan true⟩) =
      .ok ⟨"cpu", ⟨-1, by decide, by decide⟩, .nan false⟩ := by
  decide +kernel

end MetricIntake.Point
