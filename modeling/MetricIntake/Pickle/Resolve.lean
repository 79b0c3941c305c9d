-- SUMMARY: From the item a pickle leaves to a value: references expanded, integers reduced, keys checked.
import MetricIntake.Pickle.Machine

/-!
# Resolving the result

The item that STOP leaves may refer into the memo. Resolving goes through it
depth first, from left to right, and puts values in the place of references. A
reference takes its entry out of the memo while its item is resolved, and the
entry comes back only if it has uses left. An item that refers to itself
therefore finds no entry: the structure is recursive.

Since every reference on the way down has taken out an entry, references nest no
deeper than the memo is large.
-/

namespace MetricIntake.Pickle

/-- Resolving changes the memo. -/
abbrev Resolve := StateT Memo (Except ValueFault)

/-! ## Hashable values -/

mutual
/-- Whether a value may be a key of a dictionary or an item of a set. -/
def Value.isHashable : Value → Bool
  | .none | .bool _ | .int64 _ | .bigInt _ | .float _ | .bytes _ | .str _ | .frozenset _ => true
  | .tuple items => allHashable items
  | .list _ | .set _ | .dict _ => false

/-- Whether all items of a tuple are. -/
def Value.allHashable : List Value → Bool
  | [] => true
  | v :: vs => v.isHashable && allHashable vs
end

/-- Passes a hashable value on. -/
def hashable (v : Value) : Resolve Value :=
  if v.isHashable then pure v else throw .notHashable

/-- An integer of any size, as one of 64 bits if it fits. -/
def Value.ofInt (i : Int) : Value :=
  if Int64.minValue.toInt ≤ i ∧ i ≤ Int64.maxValue.toInt then .int64 (Int64.ofInt i) else .bigInt i

/-! ## Items -/

mutual
/-- Resolves an item, given the resolution of references. -/
def Item.resolve (deref : Nat → Resolve Value) : Item → Resolve Value
  | .memo id => deref id
  | .global _ => throw .unresolvedGlobal
  | .none => pure .none
  | .bool b => pure (.bool b)
  | .int64 i => pure (.int64 i)
  | .bigInt i => pure (.ofInt i)
  | .float x => pure (.float x)
  | .bytes bs => pure (.bytes bs)
  | .str s => pure (.str s)
  | .list items => return .list (← resolveItems deref items)
  | .tuple items => return .tuple (← resolveItems deref items)
  | .set items => return .set (← resolveKeys deref items)
  | .frozenset items => return .frozenset (← resolveKeys deref items)
  | .dict entries => return .dict (← resolveEntries deref entries)

/-- Resolves the items of a sequence. -/
def Item.resolveItems (deref : Nat → Resolve Value) : List Item → Resolve (List Value)
  | [] => return []
  | x :: xs => do
    let v ← x.resolve deref
    return v :: (← resolveItems deref xs)

/-- Resolves the items of a set; each must be hashable. -/
def Item.resolveKeys (deref : Nat → Resolve Value) : List Item → Resolve (List Value)
  | [] => return []
  | x :: xs => do
    let v ← hashable (← x.resolve deref)
    return v :: (← resolveKeys deref xs)

/-- Resolves the entries of a dictionary, each key before its value. -/
def Item.resolveEntries (deref : Nat → Resolve Value) :
    List (Item × Item) → Resolve (List (Value × Value))
  | [] => return []
  | (k, v) :: rest => do
    let k ← hashable (← k.resolve deref)
    let v ← v.resolve deref
    return (k, v) :: (← resolveEntries deref rest)
end

/-! ## References -/

/-- Resolves a reference with at most `depth` entries in the memo. An entry whose
    uses are exhausted stays out. -/
def derefWithin : (depth : Nat) → Nat → Resolve Value
  | 0, _ => throw .recursive
  | depth + 1, id => do
    let memo ← get
    match memo.find? id with
    | none => throw .recursive
    | some e =>
      set (memo.erase id)
      let v ← e.item.resolve (derefWithin depth)
      if 1 < e.uses then
        modify fun memo => memo.insert id { e with uses := e.uses - 1 }
      return v

/-- The value of an item under a memo. -/
def Item.toValue (x : Item) (memo : Memo) : Except ValueFault Value :=
  (x.resolve (derefWithin memo.length)).run' memo

/-! ## Whole pickles -/

/-- What turns a byte string into the value that it pickles. -/
abbrev Unpickler := List UInt8 → Except Fault Value

/-- The value that a byte string pickles. Nothing may follow STOP, which is
    looked at last. -/
def Value.ofPickle (payload : List UInt8) : Except Fault Value := do
  let finished ← Machine.run {} ⟨0, payload⟩
  let value ← (finished.result.toValue finished.machine.memo).mapError .value
  if finished.cursor.rest.isEmpty then return value
  else throw (.machine finished.cursor.offset .trailingBytes)

end MetricIntake.Pickle
