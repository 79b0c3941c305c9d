-- SUMMARY: Sets of characters as ascending lists of code point ranges.

/-!
# Ranges of code points

A property of characters is given by the ranges of code points that have it, in
ascending order.
-/

namespace MetricIntake.Text

/-- An inclusive range of code points. -/
abbrev CodeRange := Nat × Nat

/-- Whether every range ends before the next one begins. -/
def ascending : List CodeRange → Bool
  | [] => true
  | [r] => r.1 ≤ r.2
  | r :: s :: rs => r.1 ≤ r.2 && r.2 < s.1 && ascending (s :: rs)

/-- Whether a code point lies in one of the ranges. The ranges ascend, so the
    search ends at the first one that begins behind it. -/
def inRanges (n : Nat) : List CodeRange → Bool
  | [] => false
  | r :: rs => r.1 ≤ n && (n ≤ r.2 || inRanges n rs)

theorem inRanges_of_lt {n : Nat} {r : CodeRange} {rs : List CodeRange} (h : n < r.1) :
    inRanges n (r :: rs) = false := by
  simp [inRanges, Nat.not_le.2 h]

/-- Stopping early loses nothing. -/
theorem inRanges_eq_any {rs : List CodeRange} (h : ascending rs = true) (n : Nat) :
    inRanges n rs = rs.any fun r => r.1 ≤ n && n ≤ r.2 := by
  induction rs with
  | nil => rfl
  | cons r rs ih =>
    match rs, h, ih with
    | [], _, _ => simp [inRanges]
    | s :: rs, h, ih =>
      simp only [ascending, Bool.and_eq_true, decide_eq_true_eq] at h
      rw [List.any_cons, ← ih h.2, inRanges]
      by_cases hn : n < s.1
      · rw [inRanges_of_lt hn]; simp
      · have : r.1 ≤ n := by omega
        simp [this]

end MetricIntake.Text
