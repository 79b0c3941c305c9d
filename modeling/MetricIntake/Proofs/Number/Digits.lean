-- SUMMARY: Digits are read back as the number that they were written for, with a sign and within a bound.
import Mathlib.Tactic.NormNum
import MetricIntake.Number.Literal
import MetricIntake.Proofs.Text.Fields

/-!
# Digits

The value of a run of digits is the one that the core library gives it, so writing a
number and reading it is the identity. A reader that stops at a bound reads every
number up to the bound, because the value of a run only grows along the run.
-/

namespace MetricIntake.Literal

open MetricIntake.Text (IsField)

variable {cs ds : List Char} {c : Char} {n limit : Nat} {i : Int}

/-- ASCII digits only, if anything. -/
def Digits (cs : List Char) : Prop := ∀ c ∈ cs, c.isDigit = true

theorem Digits.append (h : Digits cs) (h' : Digits ds) : Digits (cs ++ ds) := by
  intro c hc
  rcases List.mem_append.1 hc with hc | hc
  · exact h c hc
  · exact h' c hc

theorem digits_zeros (n : Nat) : Digits (List.replicate n '0') := by
  intro c hc
  rw [List.eq_of_mem_replicate hc]
  rfl

theorem digits_toDigits (n : Nat) : Digits (Nat.toDigits 10 n) :=
  fun _ hc => Nat.isDigit_of_mem_toDigits (by decide) (by decide) hc

theorem bounds_of_isDigit (h : c.isDigit = true) : 0x30 ≤ c.toNat ∧ c.toNat ≤ 0x39 := by
  simp only [Char.isDigit, Bool.and_eq_true, decide_eq_true_eq] at h
  exact ⟨UInt32.le_iff_toNat_le.1 h.1, UInt32.le_iff_toNat_le.1 h.2⟩

theorem not_isBlank_of_isDigit (h : c.isDigit = true) : Text.isBlank c = false := by
  have hbounds := bounds_of_isDigit h
  simp only [Text.isBlank, Bool.or_eq_false_iff, Bool.and_eq_false_iff, decide_eq_false_iff_not,
    beq_eq_false_iff_ne]
  omega

theorem not_sign_of_isDigit (h : c.isDigit = true) : c ≠ '+' ∧ c ≠ '-' := by
  constructor <;> (rintro rfl; cases h)

theorem Digits.isField (h : Digits cs) (hne : cs ≠ []) : IsField cs :=
  ⟨hne, fun c hc => not_isBlank_of_isDigit (h c hc)⟩

/-! ## Values -/

theorem digitsValue_eq (cs : List Char) : digitsValue cs = Nat.ofDigitChars 10 cs 0 := by
  rw [digitsValue_eq_foldl, Nat.ofDigitChars_eq_foldl]
  rfl

/-- A number that is written is read. -/
theorem digitsValue_toDigits (n : Nat) : digitsValue (Nat.toDigits 10 n) = n := by
  rw [digitsValue_eq, Nat.ofDigitChars_ten_toDigits]

theorem digitsValue_append_zeros (ds : List Char) (k : Nat) :
    digitsValue (ds ++ List.replicate k '0') = digitsValue ds * 10 ^ k := by
  rw [digitsValue_eq, digitsValue_eq, Nat.ofDigitChars_append, Nat.ofDigitChars_replicate_zero,
    Nat.mul_comm]

theorem digitsValue_zeros_append (k : Nat) (ds : List Char) :
    digitsValue (List.replicate k '0' ++ ds) = digitsValue ds := by
  rw [digitsValue_eq, digitsValue_eq, Nat.ofDigitChars_append, Nat.ofDigitChars_replicate_zero,
    Nat.mul_zero]

/-! ## Signs -/

/-- A text with a minus sign in front, or without a sign. -/
def signed (negative : Bool) (cs : List Char) : List Char :=
  if negative then '-' :: cs else cs

theorem splitSign_signed (negative : Bool) (h : ∀ c ∈ cs.head?, c ≠ '+' ∧ c ≠ '-') :
    splitSign (signed negative cs) = (negative, cs) := by
  cases negative with
  | true => rfl
  | false =>
    unfold signed splitSign
    split
    · rename_i hplus
      exact absurd rfl (h '+' (by simp_all)).1
    · rename_i hminus
      exact absurd rfl (h '-' (by simp_all)).2
    · rfl

theorem isField_signed (negative : Bool) (h : IsField cs) : IsField (signed negative cs) := by
  cases negative with
  | false => exact h
  | true => exact ⟨List.cons_ne_nil _ _, List.forall_mem_cons.2 ⟨rfl, h.not_blank⟩⟩

theorem Digits.unsigned (h : Digits cs) : ∀ c ∈ cs.head?, c ≠ '+' ∧ c ≠ '-' :=
  fun c hc => not_sign_of_isDigit (h c (List.mem_of_mem_head? hc))

/-! ## Integers -/

/-- What a bounded reader does with one digit after the other. -/
def pushBounded (limit : Nat) (beyond : IntegerFault) (n : Nat) (c : Char) :
    Except IntegerFault Nat :=
  if c.isDigit then
    if 10 * n + digitValue c ≤ limit then .ok (10 * n + digitValue c) else .error beyond
  else .error .invalidDigit

theorem le_ofDigitChars (cs : List Char) (n : Nat) : n ≤ Nat.ofDigitChars 10 cs n := by
  induction cs generalizing n with
  | nil => exact le_rfl
  | cons c cs ih =>
    rw [Nat.ofDigitChars_cons]
    exact le_trans (by omega) (ih _)

theorem foldlM_pushBounded (beyond : IntegerFault) (hdigits : Digits cs)
    (hlimit : Nat.ofDigitChars 10 cs n ≤ limit) :
    cs.foldlM (pushBounded limit beyond) n = .ok (Nat.ofDigitChars 10 cs n) := by
  induction cs generalizing n with
  | nil => rfl
  | cons c cs ih =>
    have hdigit := hdigits c List.mem_cons_self
    have hrest : Digits cs := fun c hc => hdigits c (List.mem_cons_of_mem _ hc)
    rw [Nat.ofDigitChars_cons] at hlimit ⊢
    have hpush : pushBounded limit beyond n c = .ok (10 * n + (c.toNat - '0'.toNat)) := by
      rw [pushBounded, if_pos hdigit]
      exact if_pos ((le_ofDigitChars cs _).trans hlimit)
    rw [List.foldlM_cons, hpush]
    exact ih hrest hlimit

/-- Digits of a number within the limit are read. -/
theorem readBounded_eq (beyond : IntegerFault) (hdigits : Digits cs) (hne : cs ≠ [])
    (hlimit : digitsValue cs ≤ limit) : readBounded limit beyond cs = .ok (digitsValue cs) := by
  have hisEmpty : cs.isEmpty = false := List.isEmpty_eq_false_iff.2 hne
  rw [digitsValue_eq] at hlimit ⊢
  rw [readBounded, hisEmpty]
  exact foldlM_pushBounded beyond hdigits hlimit

/-- The text of an integer: its sign and the digits of its absolute value. -/
theorem toList_toString (i : Int) :
    (toString i).toList = signed (decide (i < 0)) (Nat.toDigits 10 i.natAbs) := by
  rw [Int.toString_eq_repr, Int.repr_eq_if]
  split
  · rename_i hle
    have habs : i.toNat = i.natAbs := by omega
    rw [decide_eq_false (Int.not_lt.2 hle), habs, Nat.toList_repr]
    rfl
  · rename_i hlt
    have habs : (-i).toNat = i.natAbs := by omega
    rw [decide_eq_true (Int.not_le.1 hlt), habs, String.toList_append, Nat.toList_repr]
    rfl

/-- An integer of 64 bits that is written is read. -/
theorem readInt64_toString (hlow : -(int64Bound : Int) ≤ i) (hhigh : i < int64Bound) :
    readInt64 (toString i).toList = .ok i := by
  have hdigits := digits_toDigits i.natAbs
  have hvalue := digitsValue_toDigits i.natAbs
  have hne : Nat.toDigits 10 i.natAbs ≠ [] := Nat.toDigits_ne_nil
  have hsplit := splitSign_signed (decide (i < 0)) hdigits.unsigned
  have hisEmpty : (signed (decide (i < 0)) (Nat.toDigits 10 i.natAbs)).isEmpty = false :=
    List.isEmpty_eq_false_iff.2 (isField_signed _ (hdigits.isField hne)).ne_nil
  rw [toList_toString, readInt64, hisEmpty, if_neg Bool.false_ne_true, hsplit]
  rcases lt_or_ge i 0 with hneg | hpos
  · have hlimit : digitsValue (Nat.toDigits 10 i.natAbs) ≤ int64Bound := by omega
    have hback : -(i.natAbs : Int) = i := by omega
    rw [decide_eq_true hneg]
    dsimp only
    rw [readBounded_eq .tooSmall hdigits hne hlimit, hvalue]
    exact congrArg Except.ok hback
  · have hlimit : digitsValue (Nat.toDigits 10 i.natAbs) ≤ int64Bound - 1 := by omega
    have hback : (i.natAbs : Int) = i := by omega
    rw [decide_eq_false (Int.not_lt.2 hpos)]
    dsimp only
    rw [readBounded_eq .tooLarge hdigits hne hlimit, hvalue]
    exact congrArg Except.ok hback

/-- The text of an integer is one field. -/
theorem isField_toString (i : Int) : IsField (toString i).toList := by
  rw [toList_toString]
  exact isField_signed _ ((digits_toDigits _).isField Nat.toDigits_ne_nil)

end MetricIntake.Literal
