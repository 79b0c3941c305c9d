-- SUMMARY: What stands on the stack of the pickle machine, its instructions, and how an instruction is read from bytes.
import MetricIntake.Pickle.Reader
import MetricIntake.Pickle.TextArgument
import MetricIntake.Pickle.Value

/-!
# Instructions

An instruction is an opcode together with its decoded argument. Reading one
touches nothing but the input: what an instruction does to the stack is defined
on the instruction, not on bytes. An opcode that the machine does not know is a
fault of reading.
-/

namespace MetricIntake.Pickle

/-! ## Stack items -/

/-- A named object. Only a few names mean something; a call of any other yields
    that object again. -/
inductive Global where
  | constructor (c : Constructor)
  /-- Rebuilds an object, which is shown as an empty dictionary. -/
  | reconstructor
  | other
  deriving DecidableEq, Repr

/-- What stands on the stack: values in the making, references into the memo, and
    named objects. -/
inductive Item where
  | memo (id : Nat)
  | global (g : Global)
  | none
  | bool (b : Bool)
  | int64 (i : Int64)
  | bigInt (i : Int)
  | float (x : Binary64)
  | bytes (bs : List UInt8)
  | str (s : String)
  | list (items : List Item)
  | tuple (items : List Item)
  | set (items : List Item)
  | frozenset (items : List Item)
  | dict (entries : List (Item × Item))
  deriving Repr

/-- The object that a module has under a name. -/
def Global.named (module name : List UInt8) : Global :=
  let within (ms : List String) := ms.any fun m => Utf8.encode m == module
  let called (n : String) := Utf8.encode n == name
  if within ["__builtin__", "builtins"] then
    if called "set" then .constructor .set
    else if called "frozenset" then .constructor .frozenset
    else if called "list" then .constructor .list
    else if called "bytearray" then .constructor .bytearray
    else if called "int" then .constructor .int
    else .other
  else if within ["_codecs"] && called "encode" then .constructor .encode
  else if within ["copy_reg", "copyreg"] && called "_reconstructor" then .reconstructor
  else .other

/-! ## Instructions -/

/-- The instructions of the machine. "Marked" items are those pushed since the
    last open mark. -/
inductive Instruction where
  /-- Protocol and frame headers. -/
  | skip
  | stop
  | mark
  | pop
  | popMark
  /-- Pushes a copy of the top. -/
  | copyTop
  | push (item : Item)
  /-- Moves the top into the memo under an id. -/
  | store (id : Nat)
  /-- Moves the top into the memo under the number of its entries. -/
  | storeNext
  | fetch (id : Nat)
  /-- A tuple of so many items. -/
  | tuple (n : Nat)
  | markedTuple
  | markedList
  | markedDict
  | markedFrozenset
  | append
  | appendMarked
  | setEntry
  | setMarkedEntries
  | addMarked
  /-- A named object whose module and name stand on the stack. -/
  | lookUp
  | call
  /-- Objects are not rebuilt: so many items are dropped for an empty
      dictionary. -/
  | object (n : Nat)
  /-- The same, with the marked items dropped first. -/
  | markedObject (n : Nat)
  /-- Replaces an object by its state. -/
  | build
  deriving Repr

namespace Instruction

open Reader

/-- Reads the argument of an opcode. -/
def ofOpcode (op : UInt8) : Reader Instruction :=
  match Char.ofNat op.toNat with
  | '\x80' => do let _ ← bytes 1; return .skip
  | '\x95' => do let _ ← bytes 8; return .skip
  | '.' => return .stop
  | '(' => return .mark
  | '0' => return .pop
  | '1' => return .popMark
  | '2' => return .copyTop
  | 'p' => do let l ← line; return .store (← literal l (TextArgument.memoId? l))
  | 'q' => return .store (← natural 1)
  | 'r' => return .store (← natural 4)
  | '\x94' => return .storeNext
  | 'g' => do let l ← line; return .fetch (← literal l (TextArgument.memoId? l))
  | 'h' => return .fetch (← natural 1)
  | 'j' => return .fetch (← natural 4)
  | 'N' => return .push .none
  | '\x88' => return .push (.bool true)
  | '\x89' => return .push (.bool false)
  | 'I' => do
    let l ← line
    match ← literal l (TextArgument.small? l) with
    | .bool b => return .push (.bool b)
    | .int i => return .push (.int64 (Int64.ofInt i))
  | 'L' => do
    let l ← line
    let l := if l.getLast? = some 0x4C then l.dropLast else l
    return .push (.bigInt (← literal l (TextArgument.long? l)))
  | 'F' => do let l ← line; return .push (.float (← literal l (TextArgument.float? l)))
  | 'S' => do
    let l := TextArgument.unquote (← line)
    return .push (.str (← text (← literal l (TextArgument.unescape? l))))
  | 'V' => do
    let l ← line
    return .push (.str (String.ofList (← literal l (TextArgument.unicode? l))))
  | 'G' => return .push (.float ⟨UInt64.ofNat (bigEndian (← bytes 8))⟩)
  | 'J' => return .push (.int64 (Int64.ofInt (signedLittleEndian (← bytes 4))))
  | 'K' => return .push (.int64 (Int64.ofNat (← natural 1)))
  | 'M' => return .push (.int64 (Int64.ofNat (← natural 2)))
  | '\x8a' => return .push (.bigInt (signedLittleEndian (← counted 1)))
  | '\x8b' => return .push (.bigInt (signedLittleEndian (← signedCounted)))
  | 'C' => return .push (.bytes (← counted 1))
  | 'B' => return .push (.bytes (← counted 4))
  | '\x8e' => return .push (.bytes (← counted 8))
  | '\x96' => return .push (.bytes (← counted 8))
  | 'U' => return .push (.str (← text (← counted 1)))
  | 'T' => return .push (.str (← text (← signedCounted)))
  | '\x8c' => return .push (.str (← text (← counted 1)))
  | 'X' => return .push (.str (← text (← counted 4)))
  | '\x8d' => return .push (.str (← text (← counted 8)))
  | ')' => return .push (.tuple [])
  | '\x85' => return .tuple 1
  | '\x86' => return .tuple 2
  | '\x87' => return .tuple 3
  | 't' => return .markedTuple
  | ']' => return .push (.list [])
  | 'l' => return .markedList
  | 'a' => return .append
  | 'e' => return .appendMarked
  | '\x7d' => return .push (.dict [])
  | 'd' => return .markedDict
  | 's' => return .setEntry
  | 'u' => return .setMarkedEntries
  | '\x8f' => return .push (.set [])
  | '\x91' => return .markedFrozenset
  | '\x90' => return .addMarked
  | 'c' => do
    let module ← line
    let name ← line
    return .push (.global (.named module name))
  | '\x93' => return .lookUp
  | 'R' => return .call
  | 'i' => do
    let _ ← line
    let _ ← line
    return .markedObject 0
  | 'o' => return .markedObject 1
  | '\x81' => return .object 2
  | '\x92' => return .object 3
  | 'b' => return .build
  | _ => fail (.unsupported op)

/-- Reads one instruction. -/
def read (c : Cursor) : Except Fault (Instruction × Cursor) :=
  match c.rest with
  | [] => .error (.machine c.offset .endOfInput)
  | op :: rest => (ofOpcode op).run ⟨c.offset + 1, rest⟩

/-- An instruction has at least its opcode. -/
theorem length_rest_lt_of_read {c c' : Cursor} {i : Instruction} (h : read c = .ok (i, c')) :
    c'.rest.length < c.rest.length := by
  unfold read at h
  split at h
  · cases h
  · rename_i op rest hc
    have := (ofOpcode op).shrinks h
    simp_all only [List.length_cons]
    omega

end Instruction
end MetricIntake.Pickle
