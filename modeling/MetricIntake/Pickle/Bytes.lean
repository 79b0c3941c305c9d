-- SUMMARY: Cutting byte strings: a fixed number of bytes from the front, and little-endian and big-endian numbers.

/-!
# Byte strings

Numbers in a pickle are little-endian, apart from floats. Signed ones are in
two's complement of the width in which they are written.
-/

namespace MetricIntake.Pickle

/-- The first `n` bytes and the rest, if there are that many. -/
def take? (n : Nat) (bytes : List UInt8) : Option (List UInt8 × List UInt8) :=
  let parts := bytes.splitAt n
  if parts.1.length = n then some parts else none

theorem take?_eq_some_iff {n : Nat} {bytes front rest : List UInt8} :
    take? n bytes = some (front, rest) ↔ bytes = front ++ rest ∧ front.length = n := by
  simp only [take?, List.splitAt_eq, Option.ite_none_right_eq_some, Option.some.injEq,
    Prod.mk.injEq]
  constructor
  · rintro ⟨h, rfl, rfl⟩
    exact ⟨(List.take_append_drop n bytes).symm, h⟩
  · rintro ⟨rfl, rfl⟩
    simp

theorem length_of_take?_eq_some {n : Nat} {bytes front rest : List UInt8}
    (h : take? n bytes = some (front, rest)) : rest.length + n = bytes.length := by
  obtain ⟨rfl, hn⟩ := take?_eq_some_iff.1 h
  simp [hn, Nat.add_comm]

/-- The number whose least significant byte stands first. -/
def littleEndian (bytes : List UInt8) : Nat :=
  bytes.foldr (fun b n => b.toNat + 256 * n) 0

/-- The number whose most significant byte stands first. -/
def bigEndian (bytes : List UInt8) : Nat :=
  littleEndian bytes.reverse

/-- The two's complement number of a little-endian byte string; the empty string
    is zero. -/
def signedLittleEndian (bytes : List UInt8) : Int :=
  let n := littleEndian bytes
  let modulus := Nat.pow 256 bytes.length
  if 2 * n < modulus then n else (n : Int) - (modulus : Nat)

end MetricIntake.Pickle
