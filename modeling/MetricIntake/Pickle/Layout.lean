-- SUMMARY: The layout of the argument that follows each opcode, and what a complete pickle is in these terms.
import MetricIntake.Pickle.Bytes

/-!
# Opcode layouts

A pickle is a sequence of opcodes with arguments, ended by the opcode STOP. To
find its end nothing has to be known about an opcode but the layout of its
argument. Below the table stands the grammar that it induces: `Frame` says which
byte strings are complete pickles by layout alone.
-/

namespace MetricIntake.Pickle

/-- How an argument is laid out after its opcode. -/
inductive Layout where
  /-- So many bytes. -/
  | fixed (n : Nat)
  /-- A little-endian count of so many bytes, and that many bytes. -/
  | counted (width : Nat)
  /-- A signed count of four bytes, and that many bytes. -/
  | signedCounted
  /-- So many lines, each ended by a line feed. -/
  | lines (n : Nat)
  deriving DecidableEq, Repr

/-- The opcode that ends a pickle, a full stop. -/
def stop : UInt8 := 0x2E

/-- The opcodes without an argument, as characters and beyond ASCII. -/
def plainOpcodes : List UInt8 :=
  "(.012NQRabd\x7del]ost)u".toList.map (·.toUInt8)
    ++ [0x81, 0x85, 0x86, 0x87, 0x88, 0x89, 0x8F, 0x90, 0x91, 0x92, 0x93, 0x94, 0x97, 0x98]

/-- The layout of an opcode's argument; other bytes are no opcodes. -/
def Layout.ofOpcode? (op : UInt8) : Option Layout :=
  if op ∈ plainOpcodes then some (.fixed 0)
  else match Char.ofNat op.toNat with
    | 'K' | 'h' | 'q' | '\x80' | '\x82' => some (.fixed 1)
    | 'M' | '\x83' => some (.fixed 2)
    | 'J' | 'j' | 'r' | '\x84' => some (.fixed 4)
    | 'G' | '\x95' => some (.fixed 8)
    | 'U' | 'C' | '\x8a' | '\x8c' => some (.counted 1)
    | 'X' | 'B' | '\x8b' => some (.counted 4)
    | '\x8d' | '\x8e' | '\x96' => some (.counted 8)
    | 'T' => some .signedCounted
    | 'F' | 'I' | 'L' | 'P' | 'S' | 'V' | 'g' | 'p' => some (.lines 1)
    | 'c' | 'i' => some (.lines 2)
    | _ => none

/-! ## Grammar -/

/-- Offsets and lengths are words of 64 bits. -/
def offsetLimit : Nat := UInt64.size

/-- The first count of four bytes that is negative when its sign is heeded. -/
def signedCountLimit : Nat := UInt32.size / 2

/-- A line with its line feed. -/
def IsLine (bytes : List UInt8) : Prop :=
  ∃ body : List UInt8, (0x0A : UInt8) ∉ body ∧ bytes = body ++ [0x0A]

/-- The full arguments of a layout that stand at an offset. -/
inductive Argument : Layout → Nat → List UInt8 → Prop where
  | fixed {n at_ : Nat} {bytes : List UInt8} :
    bytes.length = n → Argument (.fixed n) at_ bytes
  | counted {width at_ : Nat} {count body : List UInt8} :
    count.length = width → body.length = littleEndian count →
    at_ + width + body.length < offsetLimit → Argument (.counted width) at_ (count ++ body)
  | signedCounted {at_ : Nat} {count body : List UInt8} :
    count.length = 4 → littleEndian count < signedCountLimit → body.length = littleEndian count →
    Argument .signedCounted at_ (count ++ body)
  | noLines {at_ : Nat} : Argument (.lines 0) at_ []
  | line {n at_ : Nat} {first rest : List UInt8} :
    IsLine first → Argument (.lines n) (at_ + first.length) rest →
    Argument (.lines (n + 1)) at_ (first ++ rest)

/-- The complete pickles that start at an offset: instructions up to STOP. -/
inductive FrameFrom : Nat → List UInt8 → Prop where
  | stop {at_ : Nat} : FrameFrom at_ [stop]
  | instruction {at_ : Nat} {op : UInt8} {layout : Layout} {argument rest : List UInt8} :
    op ≠ Pickle.stop → Layout.ofOpcode? op = some layout → Argument layout (at_ + 1) argument →
    FrameFrom (at_ + 1 + argument.length) rest → FrameFrom at_ (op :: (argument ++ rest))

/-- The complete pickles. -/
def Frame (bytes : List UInt8) : Prop := FrameFrom 0 bytes

end MetricIntake.Pickle
