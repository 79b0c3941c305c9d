-- SUMMARY: Why a byte string is not a pickle: faults of the machine, with their offset, and faults of the final value.
import MetricIntake.Text.Quoted

/-!
# Pickle faults

Unpickling runs a stack machine and then resolves the value it leaves. A fault
of the machine is reported with the number of bytes read so far, a fault of the
value has no place.
-/

namespace MetricIntake.Pickle

/-- What an opcode expects on top of the stack. -/
inductive Operand where
  | list | dict | set | string | tuple | callable
  deriving DecidableEq, Repr

def Operand.name : Operand → String
  | .list => "list"
  | .dict => "dict"
  | .set => "set"
  | .string => "string"
  | .tuple => "tuple"
  | .callable => "global reference"

/-- The calls whose argument is checked. -/
inductive Constructor where
  | set | frozenset | list | bytearray | int | encode
  deriving DecidableEq, Repr

def Constructor.name : Constructor → String
  | .set => "set"
  | .frozenset => "frozenset"
  | .list => "list"
  | .bytearray => "bytearray"
  | .int => "int"
  | .encode => "encode"

/-- Faults of the machine. -/
inductive MachineFault where
  | unsupported (opcode : UInt8)
  | endOfInput
  | stackUnderflow
  | negativeLength
  | stringNotUtf8
  | invalidStackTop (expected : Operand)
  | missingMemo (id : Nat)
  | invalidLiteral (literal : String)
  | trailingBytes
  | invalidArgument (call : Constructor)
  deriving DecidableEq, Repr

/-- Faults of the value that the machine leaves. -/
inductive ValueFault where
  | notHashable
  | recursive
  | unresolvedGlobal
  | missingMemo (id : Nat)
  deriving DecidableEq, Repr

/-- Why a byte string is not a pickle. -/
inductive Fault where
  | machine (offset : Nat) (cause : MachineFault)
  | value (cause : ValueFault)
  deriving DecidableEq, Repr

/-- Opcodes are shown as Latin-1 characters. -/
def MachineFault.message : MachineFault → String
  | .unsupported op => "unsupported opcode " ++ Text.quoteChar (Char.ofNat op.toNat)
  | .endOfInput => "EOF while parsing"
  | .stackUnderflow => "pickle stack underflow"
  | .negativeLength => "negative length prefix"
  | .stringNotUtf8 => "string is not UTF-8 encoded"
  | .invalidStackTop expected => "invalid stack top, expected " ++ expected.name
  | .missingMemo id => "missing memo with id " ++ toString id
  | .invalidLiteral literal => "literal is invalid: " ++ literal
  | .trailingBytes => "trailing bytes found"
  | .invalidArgument call => "invalid value: " ++ call.name ++ "() arg"

def ValueFault.message : ValueFault → String
  | .notHashable => "dict key or set item not hashable"
  | .recursive => "recursive structure found"
  | .unresolvedGlobal => "unresolved global reference"
  | .missingMemo id => "missing memo with id " ++ toString id

def Fault.message : Fault → String
  | .machine offset cause => "eval error at offset " ++ toString offset ++ ": " ++ cause.message
  | .value cause => "decoding error: " ++ cause.message

end MetricIntake.Pickle
