-- SUMMARY: The end of a pickle in a growing buffer, found without starting over when more bytes arrive.
import MetricIntake.Pickle.Layout

/-!
# Framing

A framer looks for the end of the pickle at the front of a buffer that grows
between two calls. It keeps the offset of the opcode that it could not get past,
and for an argument made of lines how many of them have ended and where to look
for the next line feed. Arguments are skipped, so a full stop inside one never
ends the pickle.
-/

namespace MetricIntake.Pickle

/-- What a framer knows of a buffer. -/
inductive Framing where
  /-- More bytes are needed. -/
  | incomplete
  /-- The pickle ends after so many bytes. -/
  | complete (length : Nat)
  /-- No pickle starts like this. -/
  | invalid
  deriving DecidableEq, Repr

/-- Where the scan of a growing buffer stands. -/
structure Framer where
  /-- The offset of the next opcode. -/
  pos : Nat := 0
  /-- Line feeds already found in the argument of that opcode. -/
  linesSeen : Nat := 0
  /-- Where the search for the next line feed goes on. -/
  lineFrom : Nat := 0
  deriving DecidableEq, Repr

namespace Framer

/-- What is known of an argument: its length, that its end has not been seen
    (with the framer to go on from), or that it cannot end. -/
inductive Extent where
  | known (length : Nat)
  | pending (f : Framer)
  | impossible
  deriving DecidableEq, Repr

/-- Looks for `missing` more line feeds, from offset `start` on. The argument
    begins at offset `body` with `bytes`. -/
def seekLines (f : Framer) (body : Nat) (bytes : List UInt8) : (missing seen start : Nat) → Extent
  | 0, _, start => .known (start - body)
  | missing + 1, seen, start =>
    match (bytes.drop (start - body)).findIdx? (· == 0x0A) with
    | none => .pending { f with linesSeen := seen, lineFrom := body + bytes.length }
    | some i => seekLines f body bytes missing (seen + 1) (start + i + 1)

/-- The extent of the argument at the front of `bytes`, after the opcode at
    `f.pos`. -/
def extent (f : Framer) (bytes : List UInt8) : Layout → Extent
  | .fixed n => .known n
  | .counted width =>
    match take? width bytes with
    | none => .pending f
    | some (count, _) =>
      let n := width + littleEndian count
      if f.pos + 1 + n < offsetLimit then .known n else .impossible
  | .signedCounted =>
    match take? 4 bytes with
    | none => .pending f
    | some (count, _) =>
      if littleEndian count < signedCountLimit then .known (4 + littleEndian count) else .impossible
  | .lines n =>
    let body := f.pos + 1
    seekLines f body bytes (n - f.linesSeen) f.linesSeen (max f.lineFrom body)

/-- Goes on from the opcode at the front of `bytes`, which stands at `f.pos`. -/
def scanFrom (f : Framer) (bytes : List UInt8) : Framing × Framer :=
  match bytes with
  | [] => (.incomplete, f)
  | op :: bytes =>
    match Layout.ofOpcode? op with
    | none => (.invalid, f)
    | some layout =>
      match f.extent bytes layout with
      | .pending f => (.incomplete, f)
      | .impossible => (.invalid, f)
      | .known n =>
        match h : take? n bytes with
        | none => (.incomplete, f)
        | some (_, rest) =>
          have : rest.length < bytes.length + 1 := by
            have := length_of_take?_eq_some h
            omega
          if op = stop then (.complete (f.pos + 1 + n), f)
          else scanFrom { pos := f.pos + 1 + n } rest
termination_by bytes.length

/-- Scans a buffer that extends every buffer scanned before. -/
def scan (f : Framer) (buffer : List UInt8) : Framing × Framer :=
  f.scanFrom (buffer.drop f.pos)

end Framer
end MetricIntake.Pickle
