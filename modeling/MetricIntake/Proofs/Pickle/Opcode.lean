-- SUMMARY: The opcodes of the pickle protocols with the arguments that the protocols give them, and the pickles they make up.
import MetricIntake.Proofs.Pickle.Frame

/-!
# Pickle programs

The protocols 0 to 5 know 68 opcodes. Each is listed here under its own name
with the kind of argument that it takes, as the protocols describe it: numbers by
their width, strings by the width and the sign of their count, text by its lines.
A program is a sequence of such instructions that ends with STOP.

This says nothing of layouts and offsets, and is meant to be read against the
description of the protocols, not against a framer. `Program.frame` joins the
two: a program that fits into memory is a frame.
-/

namespace MetricIntake.Pickle

/-! ## Arguments -/

/-- What follows an opcode. -/
inductive Operands where
  | nothing
  /-- A number of so many bytes. -/
  | number (width : Nat)
  /-- A string behind its unsigned count of so many bytes. -/
  | string (width : Nat)
  /-- A string behind its signed count of four bytes. -/
  | signedString
  /-- Text that ends with its line. -/
  | line
  | twoLines
  deriving DecidableEq, Repr

/-- The bytes that can follow an opcode. A signed count is not negative. -/
inductive Operands.Written : Operands → List UInt8 → Prop
  | nothing : Written .nothing []
  | number {width : Nat} {bytes : List UInt8} :
    bytes.length = width → Written (.number width) bytes
  | string {width : Nat} {count body : List UInt8} :
    count.length = width → littleEndian count = body.length →
    Written (.string width) (count ++ body)
  | signedString {count body : List UInt8} :
    count.length = 4 → signedLittleEndian count = body.length →
    Written .signedString (count ++ body)
  | line {bytes : List UInt8} : IsLine bytes → Written .line bytes
  | twoLines {first second : List UInt8} :
    IsLine first → IsLine second → Written .twoLines (first ++ second)

/-! ## Opcodes -/

/-- The opcodes of the protocols 0 to 5. -/
inductive Opcode where
  | int | binint | binint1 | binint2 | long | long1 | long4
  | string | binstring | shortBinstring
  | binbytes | shortBinbytes | binbytes8 | bytearray8 | nextBuffer | readonlyBuffer
  | none | newtrue | newfalse
  | unicode | shortBinunicode | binunicode | binunicode8
  | float | binfloat
  | emptyList | append | appends | list
  | emptyTuple | tuple | tuple1 | tuple2 | tuple3
  | emptyDict | dict | setitem | setitems
  | emptySet | additems | frozenset
  | pop | dup | mark | popMark
  | get | binget | longBinget | put | binput | longBinput | memoize
  | ext1 | ext2 | ext4
  | global | stackGlobal | reduce | build | inst | obj | newobj | newobjEx
  | proto | stop | frame | persid | binpersid
  deriving DecidableEq, Repr

namespace Opcode

/-- Every opcode, in the order above. -/
def all : List Opcode := (List.range 68).map Opcode.ofNat

/-- The byte of an opcode. -/
def code : Opcode → UInt8
  | .int => 0x49
  | .binint => 0x4A
  | .binint1 => 0x4B
  | .binint2 => 0x4D
  | .long => 0x4C
  | .long1 => 0x8A
  | .long4 => 0x8B
  | .string => 0x53
  | .binstring => 0x54
  | .shortBinstring => 0x55
  | .binbytes => 0x42
  | .shortBinbytes => 0x43
  | .binbytes8 => 0x8E
  | .bytearray8 => 0x96
  | .nextBuffer => 0x97
  | .readonlyBuffer => 0x98
  | .none => 0x4E
  | .newtrue => 0x88
  | .newfalse => 0x89
  | .unicode => 0x56
  | .shortBinunicode => 0x8C
  | .binunicode => 0x58
  | .binunicode8 => 0x8D
  | .float => 0x46
  | .binfloat => 0x47
  | .emptyList => 0x5D
  | .append => 0x61
  | .appends => 0x65
  | .list => 0x6C
  | .emptyTuple => 0x29
  | .tuple => 0x74
  | .tuple1 => 0x85
  | .tuple2 => 0x86
  | .tuple3 => 0x87
  | .emptyDict => 0x7D
  | .dict => 0x64
  | .setitem => 0x73
  | .setitems => 0x75
  | .emptySet => 0x8F
  | .additems => 0x90
  | .frozenset => 0x91
  | .pop => 0x30
  | .dup => 0x32
  | .mark => 0x28
  | .popMark => 0x31
  | .get => 0x67
  | .binget => 0x68
  | .longBinget => 0x6A
  | .put => 0x70
  | .binput => 0x71
  | .longBinput => 0x72
  | .memoize => 0x94
  | .ext1 => 0x82
  | .ext2 => 0x83
  | .ext4 => 0x84
  | .global => 0x63
  | .stackGlobal => 0x93
  | .reduce => 0x52
  | .build => 0x62
  | .inst => 0x69
  | .obj => 0x6F
  | .newobj => 0x81
  | .newobjEx => 0x92
  | .proto => 0x80
  | .stop => 0x2E
  | .frame => 0x95
  | .persid => 0x50
  | .binpersid => 0x51

/-- What follows an opcode. -/
def operands : Opcode → Operands
  | .int | .long | .string | .unicode | .float | .get | .put | .persid => .line
  | .global | .inst => .twoLines
  | .binint1 | .binget | .binput | .ext1 | .proto => .number 1
  | .binint2 | .ext2 => .number 2
  | .binint | .longBinget | .longBinput | .ext4 => .number 4
  | .binfloat | .frame => .number 8
  | .long1 | .shortBinstring | .shortBinbytes | .shortBinunicode => .string 1
  | .binbytes | .binunicode => .string 4
  | .binbytes8 | .bytearray8 | .binunicode8 => .string 8
  | .long4 | .binstring => .signedString
  | _ => .nothing

end Opcode

/-- The pickles of the protocols: instructions up to STOP. -/
inductive Program : List UInt8 → Prop
  | stop : Program [Opcode.stop.code]
  | instruction {op : Opcode} {bytes rest : List UInt8} :
    op ≠ .stop → op.operands.Written bytes → Program rest →
    Program (op.code :: (bytes ++ rest))

/-! ## Programs are frames -/

/-- The layouts under which a framer may know what follows an opcode. It may
    overlook the sign of a count: a count that is not negative reads the same. -/
def Operands.layouts : Operands → List Layout
  | .nothing => [.fixed 0]
  | .number width => [.fixed width]
  | .string width => [.counted width]
  | .signedString => [.signedCounted, .counted 4]
  | .line => [.lines 1]
  | .twoLines => [.lines 2]

/-- The table of layouts knows every opcode and what follows it. -/
theorem Opcode.layout_mem (op : Opcode) :
    ∃ layout ∈ op.operands.layouts, Layout.ofOpcode? op.code = some layout := by
  cases op <;> decide

theorem littleEndian_lt (bytes : List UInt8) : littleEndian bytes < Nat.pow 256 bytes.length := by
  induction bytes with
  | nil => exact Nat.one_pos
  | cons b bytes ih =>
    have hb : b.toNat < 256 := b.toNat_lt
    have hcons : littleEndian (b :: bytes) = b.toNat + 256 * littleEndian bytes := rfl
    have hpow : Nat.pow 256 (b :: bytes).length = 256 * Nat.pow 256 bytes.length :=
      Nat.pow_succ'
    omega

/-- A count that is not negative reads the same without its sign. -/
theorem littleEndian_of_signed {count : List UInt8} {n : Nat} (hlen : count.length = 4)
    (h : signedLittleEndian count = n) :
    littleEndian count = n ∧ littleEndian count < signedCountLimit := by
  have hlt := littleEndian_lt count
  have hmodulus : Nat.pow 256 count.length = UInt32.size := by
    rw [hlen]
  have hsize : UInt32.size = 2 * signedCountLimit := rfl
  simp only [signedLittleEndian, hmodulus] at h hlt
  split at h <;> omega

theorem isLine_argument {bytes : List UInt8} (h : IsLine bytes) (at_ : Nat) :
    Argument (.lines 1) at_ bytes := by
  have hlines : Argument (.lines 1) at_ (bytes ++ []) := .line h .noLines
  rwa [List.append_nil] at hlines

/-- What the protocols let follow an opcode is an argument of its layout, wherever
    it stands in memory. -/
theorem Operands.Written.argument {operands : Operands} {bytes : List UInt8} {layout : Layout}
    {at_ : Nat} (h : operands.Written bytes) (hlayout : layout ∈ operands.layouts)
    (hlimit : at_ + bytes.length < offsetLimit) : Argument layout at_ bytes := by
  cases h with
  | nothing =>
    obtain rfl := List.mem_singleton.1 hlayout
    exact .fixed rfl
  | number hlen =>
    obtain rfl := List.mem_singleton.1 hlayout
    exact .fixed hlen
  | @string width count body hcount hbody =>
    obtain rfl := List.mem_singleton.1 hlayout
    rw [List.length_append] at hlimit
    exact .counted hcount hbody.symm (by omega)
  | @signedString count body hcount hbody =>
    obtain ⟨hvalue, hpositive⟩ := littleEndian_of_signed hcount hbody
    rw [List.length_append] at hlimit
    rcases List.mem_pair.1 hlayout with rfl | rfl
    · exact .signedCounted hcount hpositive hvalue.symm
    · exact .counted hcount hvalue.symm (by omega)
  | line hline =>
    obtain rfl := List.mem_singleton.1 hlayout
    exact isLine_argument hline at_
  | twoLines hfirst hsecond =>
    obtain rfl := List.mem_singleton.1 hlayout
    exact .line hfirst (isLine_argument hsecond _)

theorem Opcode.code_eq_stop_iff (op : Opcode) : op.code = Pickle.stop ↔ op = .stop := by
  cases op <;> decide

theorem Program.frameFrom {program : List UInt8} (h : Program program) {at_ : Nat}
    (hlimit : at_ + program.length < offsetLimit) : FrameFrom at_ program := by
  induction h generalizing at_ with
  | stop => exact .stop
  | @instruction op bytes rest hop hbytes _ ih =>
    obtain ⟨layout, hlayout, hcode⟩ := op.layout_mem
    rw [List.length_cons, List.length_append] at hlimit
    exact .instruction (mt op.code_eq_stop_iff.1 hop) hcode (hbytes.argument hlayout (by omega)) (ih (by omega))

/-- A program that fits into memory is a frame. -/
theorem Program.frame {program : List UInt8} (h : Program program)
    (hlimit : program.length < offsetLimit) : Frame program :=
  h.frameFrom (by omega)

end MetricIntake.Pickle
