-- SUMMARY: What the tables of characters come to: a character is shown as itself exactly if it lies in none of their ranges.
import MetricIntake.Text.Printable

/-!
# Printable characters

The tables are searched up to the first range that begins behind the character, and those
of two planes are told apart beforehand. Neither loses a range, as the ranges ascend and
each lies in its plane. So all tables come to one list, and a character is printable
exactly if no range of it covers the character; plain letters and signs need no search.
-/

namespace MetricIntake.Text

variable {n : Nat} {rs rs' basic supplementary : List CodeRange}

/-! ## Ranges -/

/-- Some range covers the code point. -/
def Covers (rs : List CodeRange) (n : Nat) : Prop := ∃ r ∈ rs, r.1 ≤ n ∧ n ≤ r.2

theorem covers_append : Covers (rs ++ rs') n ↔ Covers rs n ∨ Covers rs' n := by
  simp only [Covers, List.mem_append, or_and_right, exists_or]

theorem not_covers_of_lt (h : ∀ r ∈ rs, n < r.1) : ¬ Covers rs n :=
  fun ⟨r, hr, hle, _⟩ => Nat.not_le.2 (h r hr) hle

theorem not_covers_of_gt (h : ∀ r ∈ rs, r.2 < n) : ¬ Covers rs n :=
  fun ⟨r, hr, _, hle⟩ => Nat.not_le.2 (h r hr) hle

theorem inRanges_iff (h : ascending rs = true) : inRanges n rs = true ↔ Covers rs n := by
  rw [inRanges_eq_any h, List.any_eq_true]
  simp only [Covers, Bool.and_eq_true, decide_eq_true_eq]

/-- Of two tables that lie in different planes, the one of the plane is enough. -/
theorem inRanges_plane_iff (hbasic : ascending basic = true)
    (hsupplementary : ascending supplementary = true) (hbelow : ∀ r ∈ basic, r.2 < 0x10000)
    (habove : ∀ r ∈ supplementary, 0x10000 ≤ r.1) :
    (if n < 0x10000 then inRanges n basic else inRanges n supplementary) = true ↔
      Covers (basic ++ supplementary) n := by
  rw [covers_append]
  split
  · rename_i hplane
    have hnone := not_covers_of_lt fun r hr => Nat.lt_of_lt_of_le hplane (habove r hr)
    rw [inRanges_iff hbasic, or_iff_left hnone]
  · rename_i hplane
    have hnone := not_covers_of_gt fun r hr =>
      Nat.lt_of_lt_of_le (hbelow r hr) (Nat.not_lt.1 hplane)
    rw [inRanges_iff hsupplementary, or_iff_right hnone]

/-! ## Tables -/

theorem isCombining_iff :
    isCombining n = true ↔ Covers (combiningBasic ++ combiningSupplementary) n :=
  inRanges_plane_iff ascending_combiningBasic ascending_combiningSupplementary
    (by decide +kernel) (by decide +kernel)

theorem isUnassigned_iff :
    isUnassigned n = true ↔ Covers (unassignedBasic ++ unassignedSupplementary) n :=
  inRanges_plane_iff ascending_unassignedBasic ascending_unassignedSupplementary
    (by decide +kernel) (by decide +kernel)

/-- All that a quoted text escapes as a code point. -/
def unprintable : List CodeRange :=
  invisible ++ fillers ++ privateUse ++ (combiningBasic ++ combiningSupplementary) ++
    (unassignedBasic ++ unassignedSupplementary)

/-- The plain letters and signs are in no table. -/
theorem not_covers_unprintable (hle : 0x20 ≤ n) (hlt : n < 0x7F) : ¬ Covers unprintable n := by
  have hplain : ∀ r ∈ unprintable, r.2 < 0x20 ∨ 0x7F ≤ r.1 := by decide +kernel
  rintro ⟨r, hr, hfirst, hlast⟩
  rcases hplain r hr with hbefore | hbehind <;> omega

/-- A character is shown as itself exactly if no table has it. -/
theorem isPrintable_iff (c : Char) : isPrintable c = true ↔ ¬ Covers unprintable c.toNat := by
  have hinvisible : ascending invisible = true := by decide
  have hfillers : ascending fillers = true := by decide
  have hprivate : ascending privateUse = true := by decide
  have htables : (inRanges c.toNat invisible || inRanges c.toNat fillers ||
      inRanges c.toNat privateUse || isCombining c.toNat || isUnassigned c.toNat) = true ↔
        Covers unprintable c.toNat := by
    simp only [Bool.or_eq_true, isCombining_iff, isUnassigned_iff, unprintable, covers_append,
      inRanges_iff hinvisible, inRanges_iff hfillers, inRanges_iff hprivate]
  simp only [isPrintable, Bool.or_eq_true, Bool.and_eq_true, decide_eq_true_eq, Bool.not_eq_true']
  rw [← Bool.not_eq_true, htables]
  exact or_iff_right_of_imp fun h => not_covers_unprintable h.1 h.2

end MetricIntake.Text
