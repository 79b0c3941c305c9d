-- SUMMARY: The pieces of a list between separators: none holds a separator, and the first and the last one go on with what is put before and behind.
import Mathlib.Data.List.Basic

/-!
# Pieces

Bytes are cut into lines and texts into fields at every separator. What stands in front
of a list without holding a separator belongs to its first piece, and what stands behind
it belongs to its last one.
-/

namespace MetricIntake.Text

variable {α : Type} [DecidableEq α] {a : α} {xs front piece : List α}

theorem exists_splitOn_eq_cons (a : α) (xs : List α) :
    ∃ first pieces, xs.splitOn a = first :: pieces :=
  List.exists_cons_of_ne_nil (List.splitOn_ne_nil a xs)

/-- An element that is no separator goes in front of the first piece. -/
theorem splitOn_cons_of_ne {b : α} (h : b ≠ a) (xs : List α) :
    (b :: xs).splitOn a = (xs.splitOn a).modifyHead (b :: ·) := by
  rw [List.splitOn_cons_eq_if_modifyHead, if_neg (mt beq_iff_eq.1 h)]

theorem splitOn_cons_self (a : α) (xs : List α) : (a :: xs).splitOn a = [] :: xs.splitOn a :=
  List.splitOn_append_cons_self [] xs

/-- What holds no separator goes in front of the first piece. -/
theorem splitOn_append (h : a ∉ front) (xs : List α) :
    (front ++ xs).splitOn a = (xs.splitOn a).modifyHead (front ++ ·) := by
  obtain ⟨first, pieces, hpieces⟩ := exists_splitOn_eq_cons a xs
  induction front with
  | nil => rw [List.nil_append, hpieces]; rfl
  | cons b front ih =>
    rw [List.mem_cons, not_or] at h
    rw [List.cons_append, splitOn_cons_of_ne (Ne.symm h.1), ih h.2, hpieces]
    rfl

/-- The last piece goes on with what follows. -/
theorem exists_splitOn_append (a : α) (xs : List α) :
    ∃ last, a ∉ last ∧
      ∀ more, (xs ++ more).splitOn a = (xs.splitOn a).dropLast ++ (last ++ more).splitOn a := by
  by_cases hmem : a ∈ xs
  · -- cut at the last separator
    obtain ⟨after, before, hreverse, hafter⟩ := List.eq_append_cons_of_mem (List.mem_reverse.2 hmem)
    have hcut : xs = before.reverse ++ a :: after.reverse := by
      have hreverse := congrArg List.reverse hreverse
      simpa using hreverse
    have hlast : a ∉ after.reverse := by simpa using hafter
    refine ⟨after.reverse, hlast, fun more => ?_⟩
    rw [hcut, List.append_assoc, List.cons_append, List.splitOn_append_cons_self,
      List.splitOn_append_cons_self, List.splitOn_eq_singleton hlast, List.dropLast_concat]
  · refine ⟨xs, hmem, fun more => ?_⟩
    rw [List.splitOn_eq_singleton hmem, List.dropLast_singleton, List.nil_append]

/-- A piece holds no separator. -/
theorem not_mem_of_mem_splitOn (h : piece ∈ xs.splitOn a) : a ∉ piece := by
  induction xs generalizing piece with
  | nil =>
    rw [List.splitOn_nil, List.mem_singleton] at h
    rw [h]
    exact List.not_mem_nil
  | cons b xs ih =>
    by_cases hb : b = a
    · rw [hb, splitOn_cons_self] at h
      rcases List.mem_cons.1 h with rfl | h
      · exact List.not_mem_nil
      · exact ih h
    · obtain ⟨first, pieces, hpieces⟩ := exists_splitOn_eq_cons a xs
      rw [splitOn_cons_of_ne hb, hpieces] at h
      rw [hpieces] at ih
      rcases List.mem_cons.1 h with rfl | h
      · rw [List.mem_cons, not_or]
        exact ⟨Ne.symm hb, ih List.mem_cons_self⟩
      · exact ih (List.mem_cons_of_mem first h)

end MetricIntake.Text
