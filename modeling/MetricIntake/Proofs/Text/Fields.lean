-- SUMMARY: The maximal runs of characters that are not blank: how a text is cut into them, that there is one way only, and that the extent of blanks does not show.
import MetricIntake.Proofs.Text.Blank

/-!
# Runs

A text is cut into fields by looking for the next character that is not blank, and
then for the next that is. `Runs` says what comes of this without any looking: fields,
each as long as it can be, and blanks around them. A text is cut in one way only.
-/

namespace MetricIntake.Text

/-- Blanks only, if anything. -/
def Blanks (cs : List Char) : Prop := ∀ c ∈ cs, isBlank c = true

/-- At least one character, and no blank. -/
structure IsField (cs : List Char) : Prop where
  ne_nil : cs ≠ []
  not_blank : ∀ c ∈ cs, isBlank c = false

/-- A text and its fields. A field ends where the text ends or a blank follows, so it is
    as long as it can be. -/
inductive Runs : List Char → List (List Char) → Prop
  | blanks {w : List Char} : Blanks w → Runs w []
  | field {w field rest : List Char} {fields : List (List Char)} :
    Blanks w → IsField field → (∀ c ∈ rest.head?, isBlank c = true) → Runs rest fields →
    Runs (w ++ field ++ rest) (field :: fields)

/-- A text of three fields, with blanks between them and possibly around them. -/
inductive ThreeFields : (text first second third : List Char) → Prop
  | spaced {w₀ w₁ w₂ w₃ first second third : List Char} :
    Blanks w₀ → Blanks w₁ → Blanks w₂ → Blanks w₃ → w₁ ≠ [] → w₂ ≠ [] →
    IsField first → IsField second → IsField third →
    ThreeFields (w₀ ++ first ++ w₁ ++ second ++ w₂ ++ third ++ w₃) first second third

variable {cs w w' front rest field : List Char} {runs runs' : List (List Char)}

theorem blanks_nil : Blanks [] := fun _ hc => absurd hc List.not_mem_nil

theorem Blanks.append (h : Blanks w) (h' : Blanks w') : Blanks (w ++ w') := by
  intro c hc
  rcases List.mem_append.1 hc with hc | hc
  · exact h c hc
  · exact h' c hc

theorem Blanks.head? (h : Blanks w) : ∀ c ∈ w.head?, isBlank c = true :=
  fun c hc => h c (List.mem_of_mem_head? hc)

/-! ## The fields of a text -/

theorem fields_nil : fields [] = [] := fields_of_blank blanks_nil

theorem IsField.pos (h : IsField field) : ∀ c ∈ field, (!isBlank c) = true := by
  intro c hc
  rw [h.not_blank c hc, Bool.not_false]

theorem takeWhile_of_field (hfield : IsField field) (hrest : ∀ c ∈ rest.head?, isBlank c = true) :
    (field ++ rest).takeWhile (!isBlank ·) = field := by
  rw [List.takeWhile_append_of_pos hfield.pos]
  cases rest with
  | nil => simp
  | cons c rest => simp [hrest c rfl]

theorem dropWhile_of_field (hfield : IsField field) (hrest : ∀ c ∈ rest.head?, isBlank c = true) :
    (field ++ rest).dropWhile (!isBlank ·) = rest := by
  rw [List.dropWhile_append_of_pos hfield.pos]
  cases rest with
  | nil => rfl
  | cons c rest => simp [hrest c rfl]

/-- A field behind blanks is the first one. -/
theorem fields_of_field (hw : Blanks w) (hfield : IsField field)
    (hrest : ∀ c ∈ rest.head?, isBlank c = true) :
    fields (w ++ field ++ rest) = field :: fields rest := by
  obtain ⟨c, cs, rfl⟩ := List.exists_cons_of_ne_nil hfield.ne_nil
  have hfront : (w ++ c :: cs ++ rest).dropWhile isBlank = c :: (cs ++ rest) := by
    rw [List.append_assoc, List.dropWhile_append_of_pos hw]
    simp [hfield.not_blank c List.mem_cons_self]
  have htake := takeWhile_of_field hfield hrest
  have hdrop := dropWhile_of_field hfield hrest
  have hc := hfield.not_blank c List.mem_cons_self
  simp only [List.cons_append, List.takeWhile_cons, hc, Bool.not_false, ↓reduceIte,
    List.cons.injEq, true_and] at htake
  simp only [List.cons_append, List.dropWhile_cons, hc, Bool.not_false, ↓reduceIte] at hdrop
  rw [fields_of_dropWhile hfront, htake, hdrop]

theorem Runs.fields_eq (h : Runs cs runs) : fields cs = runs := by
  induction h with
  | blanks hw => exact fields_of_blank hw
  | field hw hfield hrest _ ih => rw [fields_of_field hw hfield hrest, ih]

theorem runs_fields (cs : List Char) : Runs cs (fields cs) := by
  fun_induction fields cs with
  | case1 cs hnone => exact .blanks (List.dropWhile_eq_nil_iff.1 hnone)
  | case2 cs c rest hrest hlt ih =>
    have hw : Blanks (cs.takeWhile isBlank) := fun c hc => List.mem_takeWhile_imp hc
    have hc : isBlank c = false := by
      have hnot := List.head?_dropWhile_not isBlank cs
      rw [hrest] at hnot
      exact hnot
    have hfield : IsField (c :: rest.takeWhile (!isBlank ·)) := by
      refine ⟨List.cons_ne_nil _ _, fun d hd => ?_⟩
      rcases List.mem_cons.1 hd with rfl | hd
      · exact hc
      · simpa using List.mem_takeWhile_imp hd
    have hhead : ∀ d ∈ (rest.dropWhile (!isBlank ·)).head?, isBlank d = true := by
      intro d hd
      have hnot := List.head?_dropWhile_not (!isBlank ·) rest
      rw [Option.mem_def.1 hd] at hnot
      simpa using hnot
    have hcut : cs.takeWhile isBlank ++ (c :: rest.takeWhile (!isBlank ·)) ++
        rest.dropWhile (!isBlank ·) = cs := by
      rw [List.append_assoc, List.cons_append, List.takeWhile_append_dropWhile, ← hrest,
        List.takeWhile_append_dropWhile]
    have hruns := Runs.field hw hfield hhead ih
    rwa [hcut] at hruns

/-- A text has the runs that it is cut into, and no others. -/
theorem runs_iff : Runs cs runs ↔ fields cs = runs :=
  ⟨Runs.fields_eq, fun h => h ▸ runs_fields cs⟩

/-! ## Blanks do not show -/

theorem Runs.blanks_append (hw : Blanks w) (h : Runs cs runs) : Runs (w ++ cs) runs := by
  cases h with
  | blanks hcs => exact .blanks (hw.append hcs)
  | field hw' hfield hrest h =>
    rw [← List.append_assoc, ← List.append_assoc]
    exact .field (hw.append hw') hfield hrest h

theorem Runs.append_blanks_append (h : Runs front runs) (hw : Blanks w) (hne : w ≠ [])
    (h' : Runs rest runs') : Runs (front ++ (w ++ rest)) (runs ++ runs') := by
  induction h with
  | blanks hfront => exact (h'.blanks_append hw).blanks_append hfront
  | @field w' field behind runs hw' hfield hbehind _ ih =>
    rw [List.append_assoc]
    refine .field hw' hfield ?_ ih
    cases behind with
    | nil =>
      obtain ⟨b, w, rfl⟩ := List.exists_cons_of_ne_nil hne
      exact hw.head?
    | cons b behind => exact hbehind

/-- Blanks inside a text divide it: the fields are those in front and those behind. -/
theorem fields_append_blanks_append (front rest : List Char) (hw : Blanks w) (hne : w ≠ []) :
    fields (front ++ (w ++ rest)) = fields front ++ fields rest :=
  ((runs_fields front).append_blanks_append hw hne (runs_fields rest)).fields_eq

theorem fields_blanks_append (rest : List Char) (hw : Blanks w) :
    fields (w ++ rest) = fields rest :=
  ((runs_fields rest).blanks_append hw).fields_eq

theorem fields_append_blanks (front : List Char) (hw : Blanks w) :
    fields (front ++ w) = fields front := by
  rcases eq_or_ne w [] with rfl | hne
  · rw [List.append_nil]
  · have hdivided := fields_append_blanks_append front [] hw hne
    rwa [List.append_nil, fields_nil, List.append_nil] at hdivided

/-! ## Few fields -/

theorem fields_eq_self (h : IsField field) : fields field = [field] := by
  have hfields : fields ([] ++ field ++ []) = field :: fields [] :=
    fields_of_field blanks_nil h blanks_nil.head?
  rwa [List.nil_append, List.append_nil, fields_nil] at hfields

theorem Runs.eq_field_append (h : Runs cs (field :: runs)) :
    ∃ w rest, cs = w ++ field ++ rest ∧ Blanks w ∧ IsField field ∧
      (∀ c ∈ rest.head?, isBlank c = true) ∧ Runs rest runs := by
  cases h with
  | field hw hfield hrest h => exact ⟨_, _, rfl, hw, hfield, hrest, h⟩

/-- A text that is cut is a field only if nothing is cut off. -/
theorem fields_eq_self_iff : fields cs = [cs] ↔ IsField cs := by
  constructor
  · intro h
    obtain ⟨-, -, -, -, hfield, -⟩ := (runs_iff.2 h).eq_field_append
    exact hfield
  · exact fields_eq_self

/-- Blanks in front of a field are there if a blank is to stand first. -/
theorem ne_nil_of_head? (hfield : IsField field)
    (hhead : ∀ c ∈ (w ++ field ++ rest).head?, isBlank c = true) : w ≠ [] := by
  rintro rfl
  obtain ⟨c, cs, rfl⟩ := List.exists_cons_of_ne_nil hfield.ne_nil
  have hblank := hhead c rfl
  rw [hfield.not_blank c List.mem_cons_self] at hblank
  cases hblank

/-- The texts of three fields are those that are written as three fields. -/
theorem fields_eq_three_iff {first second third : List Char} :
    fields cs = [first, second, third] ↔ ThreeFields cs first second third := by
  constructor
  · intro h
    obtain ⟨w₀, rest, rfl, hw₀, hfirst, hhead, hrest⟩ := (runs_iff.2 h).eq_field_append
    obtain ⟨w₁, rest, rfl, hw₁, hsecond, hhead', hrest⟩ := hrest.eq_field_append
    obtain ⟨w₂, w₃, rfl, hw₂, hthird, -, hrest⟩ := hrest.eq_field_append
    cases hrest with
    | blanks hw₃ =>
      have hne₁ := ne_nil_of_head? hsecond hhead
      have hne₂ := ne_nil_of_head? hthird hhead'
      have hspaced := ThreeFields.spaced hw₀ hw₁ hw₂ hw₃ hne₁ hne₂ hfirst hsecond hthird
      simpa only [List.append_assoc] using hspaced
  · rintro ⟨hw₀, hw₁, hw₂, hw₃, hne₁, hne₂, hfirst, hsecond, hthird⟩
    rw [fields_append_blanks _ hw₃]
    simp only [List.append_assoc]
    rw [fields_blanks_append _ hw₀, fields_append_blanks_append _ _ hw₁ hne₁,
      fields_append_blanks_append _ _ hw₂ hne₂, fields_eq_self hfirst, fields_eq_self hsecond,
      fields_eq_self hthird]
    rfl

end MetricIntake.Text
