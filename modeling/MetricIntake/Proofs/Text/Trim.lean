-- SUMMARY: What trimming cuts off, and that a text may as well be trimmed before it is cut at a character that is not blank.
import MetricIntake.Proofs.Text.Fields
import MetricIntake.Proofs.Text.Pieces

/-!
# Trimming

Trimming cuts off the blanks at both ends and leaves the rest as it is. A text that is
cut at a separator and trimmed piece by piece may be trimmed as a whole before: this
takes blanks off its first and its last piece only, and no separator.
-/

namespace MetricIntake.Text

/-- A text and what is left of it without the blanks at its ends. -/
inductive Trimmed : List Char → List Char → Prop
  | surrounded {front core back : List Char} :
    Blanks front → Tight core → Blanks back → Trimmed (front ++ core ++ back) core

variable {cs core w : List Char} {sep : Char}

/-! ## Blanks at the ends -/

theorem Blanks.reverse (h : Blanks w) : Blanks w.reverse :=
  fun c hc => h c (List.mem_reverse.1 hc)

theorem tight_nil : Tight [] := ⟨nofun, nofun⟩

theorem trim_blanks_append (hw : Blanks w) (cs : List Char) : trim (w ++ cs) = trim cs := by
  rw [trim, trim, List.dropWhile_append_of_pos hw]

theorem trim_append_blanks (hw : Blanks w) (cs : List Char) : trim (cs ++ w) = trim cs := by
  rw [trim, trim, List.dropWhile_append]
  split
  · rename_i hblank
    rw [List.dropWhile_eq_nil_iff.2 hw, List.isEmpty_iff.1 hblank]
  · rw [List.reverse_append, List.dropWhile_append_of_pos hw.reverse]

theorem Trimmed.subset (h : Trimmed cs core) : core ⊆ cs := by
  cases h with
  | surrounded => exact fun c hc => List.mem_append_left _ (List.mem_append_right _ hc)

theorem trimmed_trim (cs : List Char) : Trimmed cs (trim cs) := by
  let rest := cs.dropWhile isBlank
  have hfront : Blanks (cs.takeWhile isBlank) := fun c hc => List.mem_takeWhile_imp hc
  have hback : Blanks (rest.reverse.takeWhile isBlank).reverse :=
    Blanks.reverse fun c hc => List.mem_takeWhile_imp hc
  have hrest : trim cs ++ (rest.reverse.takeWhile isBlank).reverse = rest := by
    rw [trim, ← List.reverse_append, List.takeWhile_append_dropWhile, List.reverse_reverse]
  have htight : Tight (trim cs) := by
    constructor
    · intro c hc
      have hhead : rest.head? = some c := by
        rw [← hrest, List.head?_append, Option.mem_def.1 hc, Option.some_or]
      have hnot := List.head?_dropWhile_not isBlank cs
      rwa [hhead] at hnot
    · intro c hc
      have hnot := List.head?_dropWhile_not isBlank rest.reverse
      rw [trim, List.getLast?_reverse] at hc
      rwa [Option.mem_def.1 hc] at hnot
  have htrimmed := Trimmed.surrounded hfront htight hback
  rwa [List.append_assoc, hrest, List.takeWhile_append_dropWhile] at htrimmed

theorem Trimmed.tight (h : Trimmed cs core) : Tight core := by
  cases h with
  | surrounded _ hcore _ => exact hcore

/-- Nothing is left of blanks only. -/
theorem trim_eq_nil_iff : trim cs = [] ↔ Blanks cs := by
  constructor
  · intro h
    have htrimmed := trimmed_trim cs
    rw [h] at htrimmed
    cases htrimmed with
    | surrounded hfront _ hback =>
      rw [List.append_nil]
      exact hfront.append hback
  · intro h
    rw [← List.append_nil cs, trim_blanks_append h, tight_nil.trim]

/-! ## Cutting -/

theorem Blanks.not_mem (hw : Blanks w) (hsep : isBlank sep = false) : sep ∉ w := by
  intro hmem
  rw [hw sep hmem] at hsep
  cases hsep

/-- Blanks in front of a text are blanks in front of its first piece. -/
theorem map_trim_splitOn_blanks_append (hw : Blanks w) (hsep : isBlank sep = false)
    (cs : List Char) : ((w ++ cs).splitOn sep).map trim = (cs.splitOn sep).map trim := by
  obtain ⟨first, pieces, hpieces⟩ := exists_splitOn_eq_cons sep cs
  rw [splitOn_append (hw.not_mem hsep), hpieces]
  exact congrArg (· :: pieces.map trim) (trim_blanks_append hw first)

/-- Blanks behind a text are blanks behind its last piece. -/
theorem map_trim_splitOn_append_blanks (hw : Blanks w) (hsep : isBlank sep = false)
    (cs : List Char) : ((cs ++ w).splitOn sep).map trim = (cs.splitOn sep).map trim := by
  obtain ⟨last, hlast, hpieces⟩ := exists_splitOn_append sep cs
  have hlonger : sep ∉ last ++ w := by
    rw [List.mem_append, not_or]
    exact ⟨hlast, hw.not_mem hsep⟩
  have hshort := hpieces []
  rw [List.append_nil, List.append_nil, List.splitOn_eq_singleton hlast] at hshort
  rw [hpieces w, List.splitOn_eq_singleton hlonger, hshort, List.map_append, List.map_append,
    List.map_singleton, List.map_singleton, trim_append_blanks hw, List.dropLast_concat]

/-- A text may be trimmed before it is cut into pieces that are trimmed. -/
theorem map_trim_splitOn_trim (hsep : isBlank sep = false) (cs : List Char) :
    ((trim cs).splitOn sep).map trim = (cs.splitOn sep).map trim := by
  generalize htrim : trim cs = core
  have htrimmed := trimmed_trim cs
  rw [htrim] at htrimmed
  cases htrimmed with
  | surrounded hfront _ hback =>
    rw [map_trim_splitOn_append_blanks hback hsep, map_trim_splitOn_blanks_append hfront hsep]

end MetricIntake.Text
