-- SUMMARY: White space: the Unicode property for text, the five ASCII blanks for raw bytes, fields and trimming.

/-!
# Blanks

Two notions of blank live side by side. Text that has been read as characters
uses the Unicode property White_Space. Raw bytes, which may not be text at all,
know only the five ASCII blanks, and the vertical tab is not one of them.
-/

namespace MetricIntake.Text

/-! ## Characters -/

/-- The Unicode property White_Space, twenty-five characters. -/
def isBlank (c : Char) : Bool :=
  let n := c.toNat
  (0x09 ≤ n && n ≤ 0x0D) || n == 0x20 || n == 0x85 || n == 0xA0 || n == 0x1680
    || (0x2000 ≤ n && n ≤ 0x200A) || n == 0x2028 || n == 0x2029 || n == 0x202F
    || n == 0x205F || n == 0x3000

/-- The maximal runs of characters that are not blank, in order. -/
def fields (cs : List Char) : List (List Char) :=
  match h : cs.dropWhile isBlank with
  | [] => []
  | c :: rest =>
    have : (rest.dropWhile (!isBlank ·)).length < cs.length := by
      have h₁ := (List.dropWhile_suffix isBlank (l := cs)).length_le
      have h₂ := (List.dropWhile_suffix (!isBlank ·) (l := rest)).length_le
      rw [h, List.length_cons] at h₁
      omega
    (c :: rest.takeWhile (!isBlank ·)) :: fields (rest.dropWhile (!isBlank ·))
termination_by cs.length

/-- The text without the blanks at its two ends. -/
def trim (cs : List Char) : List Char :=
  ((cs.dropWhile isBlank).reverse.dropWhile isBlank).reverse

/-! ## Bytes -/

/-- Tab, line feed, form feed, carriage return and space. -/
def isBlankByte (b : UInt8) : Bool :=
  b == 0x09 || b == 0x0A || b == 0x0C || b == 0x0D || b == 0x20

end MetricIntake.Text
