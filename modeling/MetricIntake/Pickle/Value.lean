-- SUMMARY: Unpickled values and the kinds they are reported by.
import MetricIntake.Number.Binary64

/-!
# Pickle values

What an unpickled batch is made of. Integers come in two forms: those that were
read as 64-bit integers, or reduced to them at the end of unpickling, and
arbitrary ones. Only the first form counts as an integer of a record.
-/

namespace MetricIntake.Pickle

/-- The kind of a value, as named in messages. -/
inductive Kind where
  | none | bool | int | float | bytes | str | list | tuple | set | dict
  deriving DecidableEq, Repr

def Kind.name : Kind → String
  | .none => "None"
  | .bool => "bool"
  | .int => "int"
  | .float => "float"
  | .bytes => "bytes"
  | .str => "str"
  | .list => "list"
  | .tuple => "tuple"
  | .set => "set"
  | .dict => "dict"

/-- An unpickled value. Sets and dictionaries keep their items as written: no
    reader looks into them. -/
inductive Value where
  | none
  | bool (b : Bool)
  | int64 (i : Int64)
  | bigInt (i : Int)
  | float (x : Binary64)
  | bytes (bs : List UInt8)
  | str (s : String)
  | list (items : List Value)
  | tuple (items : List Value)
  | set (items : List Value)
  | frozenset (items : List Value)
  | dict (entries : List (Value × Value))
  deriving Repr

/-- Both sets are reported as `set`, both integers as `int`. -/
def Value.kind : Value → Kind
  | .none => .none
  | .bool _ => .bool
  | .int64 _ => .int
  | .bigInt _ => .int
  | .float _ => .float
  | .bytes _ => .bytes
  | .str _ => .str
  | .list _ => .list
  | .tuple _ => .tuple
  | .set _ => .set
  | .frozenset _ => .set
  | .dict _ => .dict

/-- The items of a list or a tuple. -/
def Value.items? : Value → Option (List Value)
  | .list items => some items
  | .tuple items => some items
  | _ => Option.none

end MetricIntake.Pickle
