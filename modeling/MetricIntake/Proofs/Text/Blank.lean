-- SUMMARY: Fields: where a text has none, and where the first one ends; what trimming keeps.
import Mathlib.Data.List.TakeWhile
import MetricIntake.Text.Blank

/-!
# Fields and trimming

The fields of a text are found from the front, blanks first and then the field.
Trimming keeps a text that has no blank at either end.
-/

namespace MetricIntake.Text

variable {cs rest : List Char} {c : Char}

/-! ## Fields -/

/-- A text of blanks has no fields. -/
theorem fields_of_blank (h : ∀ c ∈ cs, isBlank c = true) : fields cs = [] := by
  have hnone : cs.dropWhile isBlank = [] := List.dropWhile_eq_nil_iff.2 h
  unfold fields
  split
  · rfl
  · rename_i c rest hrest
    rw [hnone] at hrest
    cases hrest

/-- The first field begins at the first character that is no blank. -/
theorem fields_of_dropWhile (h : cs.dropWhile isBlank = c :: rest) :
    fields cs = (c :: rest.takeWhile (!isBlank ·)) :: fields (rest.dropWhile (!isBlank ·)) := by
  rw [fields]
  split
  · rename_i hnone
    rw [h] at hnone
    cases hnone
  · rename_i c' rest' hrest
    rw [h] at hrest
    obtain ⟨rfl, rfl⟩ := List.cons.inj hrest
    rfl

/-! ## Trimming -/

/-- There is no blank at either end. -/
structure Tight (cs : List Char) : Prop where
  front : ∀ c ∈ cs.head?, isBlank c = false
  back : ∀ c ∈ cs.getLast?, isBlank c = false

theorem dropWhile_isBlank (h : ∀ c ∈ cs.head?, isBlank c = false) : cs.dropWhile isBlank = cs := by
  cases cs with
  | nil => rfl
  | cons c cs => simp [h c rfl]

theorem Tight.trim (h : Tight cs) : trim cs = cs := by
  have hreverse : cs.reverse.dropWhile isBlank = cs.reverse := by
    apply dropWhile_isBlank
    rw [List.head?_reverse]
    exact h.back
  rw [Text.trim, dropWhile_isBlank h.front, hreverse, List.reverse_reverse]

end MetricIntake.Text
