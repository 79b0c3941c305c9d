-- SUMMARY: A reader of byte strings that knows its offset and never gives bytes back.
import MetricIntake.Pickle.Bytes
import MetricIntake.Pickle.Fault
import MetricIntake.Text.Utf8

/-!
# Reading pickle bytes

A reader stands at a cursor, the rest of the input and its offset. It fails with
the offset that it had reached. That a reader leaves no more than it found is
part of it, so a loop over readers ends.

The pieces of an argument are read one by one. A piece that the end of the input
cuts short does not move the cursor.
-/

namespace MetricIntake.Pickle

/-- The rest of an input and the number of bytes before it. -/
structure Cursor where
  offset : Nat
  rest : List UInt8
  deriving DecidableEq, Repr

/-- A step of reading that leaves no more than it found. -/
structure Reader (α : Type) where
  run : Cursor → Except Fault (α × Cursor)
  shrinks : ∀ {c c' : Cursor} {a : α}, run c = .ok (a, c') → c'.rest.length ≤ c.rest.length

namespace Reader

variable {α β : Type}

/-! ## Composition -/

protected def pure (a : α) : Reader α where
  run c := .ok (a, c)
  shrinks h := by
    injection h with h
    injection h with _ h
    simp [h]

protected def bind (r : Reader α) (f : α → Reader β) : Reader β where
  run c :=
    match r.run c with
    | .error e => .error e
    | .ok (a, c) => (f a).run c
  shrinks {c c' b} h := by
    split at h
    · cases h
    · rename_i a c₁ hr
      exact Nat.le_trans ((f a).shrinks h) (r.shrinks hr)

instance : Monad Reader where
  pure := Reader.pure
  bind := Reader.bind

@[simp] theorem run_pure (a : α) (c : Cursor) : (pure a : Reader α).run c = .ok (a, c) := rfl

@[simp] theorem run_bind (r : Reader α) (f : α → Reader β) (c : Cursor) :
    (r >>= f).run c = match r.run c with
      | .error e => .error e
      | .ok (a, c) => (f a).run c := rfl

/-- Fails where the cursor stands. -/
def fail (cause : MachineFault) : Reader α where
  run c := .error (.machine c.offset cause)
  shrinks h := by cases h

/-! ## Pieces -/

/-- Exactly `n` bytes. -/
def bytes (n : Nat) : Reader (List UInt8) where
  run c :=
    match take? n c.rest with
    | none => .error (.machine c.offset .endOfInput)
    | some (front, rest) => .ok (front, ⟨c.offset + n, rest⟩)
  shrinks {c c' a} h := by
    split at h
    · cases h
    · rename_i front rest ht
      injection h with h
      injection h with _ h
      have := length_of_take?_eq_some ht
      subst h
      simp only
      omega

/-- A little-endian number of `width` bytes. -/
def natural (width : Nat) : Reader Nat :=
  return littleEndian (← bytes width)

/-- A count of `width` bytes, then as many bytes as it says. -/
def counted (width : Nat) : Reader (List UInt8) := do
  bytes (← natural width)

/-- A signed count of four bytes, which must not be negative, then as many bytes
    as it says. -/
def signedCounted : Reader (List UInt8) := do
  match signedLittleEndian (← bytes 4) with
  | .ofNat n => bytes n
  | .negSucc _ => fail .negativeLength

/-- The line without the carriage return at its end. -/
def stripReturn (line : List UInt8) : List UInt8 :=
  if line.getLast? = some 0x0D then line.dropLast else line

/-- The line at the front of the input, and the cursor behind it. It reaches to
    its line feed or to the end of the input; its last byte does not belong to it
    in either case. -/
def takeLine (c : Cursor) : List UInt8 × Cursor :=
  let body := c.rest.takeWhile (· != 0x0A)
  match c.rest.dropWhile (· != 0x0A) with
  | [] => (stripReturn body.dropLast, ⟨c.offset + body.length, []⟩)
  | _ :: rest => (stripReturn body, ⟨c.offset + body.length + 1, rest⟩)

theorem length_rest_takeLine_le (c : Cursor) :
    (takeLine c).2.rest.length ≤ c.rest.length := by
  have hs := (List.dropWhile_suffix (· != 0x0A) (l := c.rest)).length_le
  unfold takeLine
  split
  · exact Nat.zero_le _
  · rename_i b rest hd
    rw [hd, List.length_cons] at hs
    exact Nat.le_of_succ_le hs

/-- A line. -/
def line : Reader (List UInt8) where
  run c := .ok (takeLine c)
  shrinks {c _ _} h := by
    have hl := length_rest_takeLine_le c
    rw [Except.ok.inj h] at hl
    exact hl

/-- The text of a piece. -/
def text (piece : List UInt8) : Reader String :=
  match Utf8.text? piece with
  | some s => pure s
  | none => fail .stringNotUtf8

/-- What a literal denotes, or the fault that shows it. -/
def literal (shown : List UInt8) : Option α → Reader α
  | some a => pure a
  | none => fail (.invalidLiteral (Utf8.textLenient shown))

end Reader
end MetricIntake.Pickle
