-- SUMMARY: Which characters a quoted text shows as themselves.
import MetricIntake.Text.Combining
import MetricIntake.Text.Unassigned

/-!
# Printable characters

A quoted text escapes what a reader could not see or could not tell apart:
controls, format characters, separators other than the plain space, fillers
without a shape, private-use and unassigned code points, and combining marks,
which would otherwise attach to the character before them.
-/

namespace MetricIntake.Text

/-- Controls, format characters and the separators other than the plain space. -/
def invisible : List CodeRange :=
  [(0x0, 0x1F), (0x7F, 0xA0), (0xAD, 0xAD), (0x600, 0x605), (0x61C, 0x61C), (0x6DD, 0x6DD),
   (0x70F, 0x70F), (0x890, 0x891), (0x8E2, 0x8E2), (0x1680, 0x1680), (0x180E, 0x180E),
   (0x2000, 0x200F), (0x2028, 0x202F), (0x205F, 0x2064), (0x2066, 0x206F), (0x3000, 0x3000),
   (0xFEFF, 0xFEFF), (0xFFF9, 0xFFFB), (0x110BD, 0x110BD), (0x110CD, 0x110CD), (0x13430, 0x1343F),
   (0x1BCA0, 0x1BCA3), (0x1D173, 0x1D17A), (0xE0001, 0xE0001), (0xE0020, 0xE007F)]

/-- The Hangul fillers: letters that stand for a missing one and have no shape. -/
def fillers : List CodeRange :=
  [(0x115F, 0x1160), (0x3164, 0x3164), (0xFFA0, 0xFFA0)]

/-- The code points left to private agreement. -/
def privateUse : List CodeRange :=
  [(0xE000, 0xF8FF), (0xF0000, 0xFFFFD), (0x100000, 0x10FFFD)]

/-- Whether a quoted text shows the character as itself. -/
def isPrintable (c : Char) : Bool :=
  let n := c.toNat
  (0x20 ≤ n && n < 0x7F)
    || !(inRanges n invisible || inRanges n fillers || inRanges n privateUse
          || isCombining n || isUnassigned n)

end MetricIntake.Text
