-- SUMMARY: The pickle machine: a stack with marks, a memo with reference counts, and what each instruction does to them.
import MetricIntake.Pickle.Instruction

/-!
# The machine

The machine has a current stack, the stacks that open marks have put aside, and
a memo. Items in the memo are referred to by id, and every entry counts the
references that are still to be used: one for the item that was stored, one for
each fetch, and one less when an instruction takes the item out by value.

Instructions that change a container in place change the memo's copy if a
reference to it is on top.
-/

namespace MetricIntake.Pickle

/-! ## Memo -/

/-- An item in the memo and the number of references to it still to be used. -/
structure MemoEntry where
  item : Item
  uses : Int
  deriving Repr

/-- The memo, by id. -/
abbrev Memo := List (Nat × MemoEntry)

namespace Memo

def find? (m : Memo) (id : Nat) : Option MemoEntry := m.lookup id

def erase (m : Memo) (id : Nat) : Memo := m.filter (·.1 != id)

/-- Sets an entry; an id has one entry. -/
def insert (m : Memo) (id : Nat) (e : MemoEntry) : Memo := (id, e) :: m.erase id

end Memo

/-! ## State -/

/-- The state of the machine. Stacks have their top first. -/
structure Machine where
  stack : List Item := []
  marks : List (List Item) := []
  memo : Memo := []
  deriving Repr

/-- Steps of the machine. -/
abbrev Exec := StateT Machine (Except MachineFault)

namespace Exec

def push (x : Item) : Exec Unit :=
  modify fun m => { m with stack := x :: m.stack }

def pop : Exec Item := do
  let m ← get
  match m.stack with
  | [] => throw .stackUnderflow
  | x :: stack =>
    set { m with stack }
    return x

/-- Closes the last mark and takes the marked items, oldest first. -/
def popMark : Exec (List Item) := do
  let m ← get
  match m.marks with
  | [] => throw .stackUnderflow
  | stack :: marks =>
    set { m with stack, marks }
    return m.stack.reverse

/-- The item that a reference stands for, which uses up one reference. -/
def deref : Item → Exec Item
  | .memo id => do
    let m ← get
    match m.memo.find? id with
    | none => throw (.missingMemo id)
    | some e =>
      set { m with memo := m.memo.insert id { e with uses := e.uses - 1 } }
      return e.item
  | x => return x

/-- The top, seen through a reference. -/
def top : Exec Item := do
  let m ← get
  match m.stack with
  | [] => throw .stackUnderflow
  | .memo id :: _ =>
    match m.memo.find? id with
    | none => throw (.missingMemo id)
    | some e => return e.item
  | x :: _ => return x

/-- Changes the top in place, through a reference if there is one. -/
def modifyTop (expected : Operand) (f : Item → Option Item) : Exec Unit := do
  match f (← top) with
  | none => throw (.invalidStackTop expected)
  | some x =>
    modify fun m =>
      match m.stack with
      | .memo id :: _ =>
        { m with memo := (m.memo.find? id).elim m.memo fun e => m.memo.insert id { e with item := x } }
      | _ :: stack => { m with stack := x :: stack }
      | [] => m

/-- Moves the top into the memo and leaves a reference. -/
def store (id : Nat) : Exec Unit := do
  let x ← top
  modify fun m =>
    { m with
      stack := .memo id :: m.stack.drop 1
      memo := m.memo.insert id ⟨x, 1⟩ }

/-- Pushes a reference into the memo. -/
def fetch (id : Nat) : Exec Unit := do
  let m ← get
  match m.memo.find? id with
  | none => throw (.missingMemo id)
  | some e =>
    set { m with
      stack := .memo id :: m.stack
      memo := m.memo.insert id { e with uses := e.uses + 1 } }

end Exec

/-! ## Calls -/

/-- Items in pairs; an odd last one is dropped. -/
def pairs : List Item → List (Item × Item)
  | k :: v :: rest => (k, v) :: pairs rest
  | _ => []

/-- Characters as bytes, each modulo 256. -/
def latinBytes (s : String) : List UInt8 :=
  s.toList.map fun c => UInt8.ofNat c.toNat

namespace Exec

/-- The item that an argument stands for, or the fault of the call without one. -/
def argument (c : Constructor) : Option Item → Exec Item
  | some x => deref x
  | none => throw (.invalidArgument c)

/-- The result of a call. Constructors look at their last argument, a byte array
    at its first, and an encoded string at the last two. -/
def construct (c : Constructor) (args : List Item) : Exec Item := do
  match c with
  | .bytearray =>
    match ← argument c args.head? with
    | .bytes bs => return .bytes bs
    | .str s => return .bytes (latinBytes s)
    | _ => throw (.invalidArgument c)
  | .encode =>
    match ← argument c args.getLast? with
    | .str _ =>
      match ← argument c args.dropLast.getLast? with
      | .str s => return .bytes (latinBytes s)
      | _ => throw (.invalidArgument c)
    | _ => throw (.invalidArgument c)
  | .set =>
    match ← argument c args.getLast? with
    | .list items => return .set items
    | _ => throw (.invalidArgument c)
  | .frozenset =>
    match ← argument c args.getLast? with
    | .list items => return .frozenset items
    | _ => throw (.invalidArgument c)
  | .list =>
    match ← argument c args.getLast? with
    | .list items => return .list items
    | _ => throw (.invalidArgument c)
  | .int =>
    match ← argument c args.getLast? with
    | .bigInt i => return .bigInt i
    | _ => throw (.invalidArgument c)

/-- Pops a string, through a reference if there is one. -/
def popString : Exec String := do
  match ← deref (← pop) with
  | .str s => return s
  | _ => throw (.invalidStackTop .string)

/-- Pops the arguments and the callable, and pushes the result. -/
def call : Exec Unit := do
  match ← deref (← pop) with
  | .tuple args =>
    match ← deref (← pop) with
    | .global (.constructor c) => push (← construct c args)
    | .global .reconstructor => push (.dict [])
    | .global .other => push (.global .other)
    | _ => throw (.invalidStackTop .callable)
  | _ => throw (.invalidStackTop .tuple)

/-- Pops `n` items, oldest first. -/
def popMany : Nat → Exec (List Item)
  | 0 => return []
  | n + 1 => do
    let x ← pop
    return (← popMany n) ++ [x]

/-! ## Instructions -/

/-- What an instruction other than STOP does. -/
def step : Instruction → Exec Unit
  | .skip | .stop => return ()
  | .mark => modify fun m => { m with stack := [], marks := m.stack :: m.marks }
  | .pop => do
    if (← get).stack.isEmpty then
      let _ ← popMark
    else
      let _ ← pop
  | .popMark => do let _ ← popMark
  | .copyTop => do push (← top)
  | .push x => push x
  | .store id => store id
  | .storeNext => do store (← get).memo.length
  | .fetch id => fetch id
  | .tuple n => do push (.tuple (← popMany n))
  | .markedTuple => do push (.tuple (← popMark))
  | .markedList => do push (.list (← popMark))
  | .markedDict => do push (.dict (pairs (← popMark)))
  | .markedFrozenset => do push (.frozenset (← popMark))
  | .append => do
    let x ← pop
    modifyTop .list fun
      | .list items => some (.list (items ++ [x]))
      | _ => none
  | .appendMarked => do
    let xs ← popMark
    modifyTop .list fun
      | .list items => some (.list (items ++ xs))
      | _ => none
  | .setEntry => do
    let v ← pop
    let k ← pop
    modifyTop .dict fun
      | .dict entries => some (.dict (entries ++ [(k, v)]))
      | _ => none
  | .setMarkedEntries => do
    let xs ← popMark
    modifyTop .dict fun
      | .dict entries => some (.dict (entries ++ pairs xs))
      | _ => none
  | .addMarked => do
    let xs ← popMark
    modifyTop .set fun
      | .set items => some (.set (items ++ xs))
      | _ => none
  | .lookUp => do
    let name ← popString
    let module ← popString
    push (.global (.named (Utf8.encode module) (Utf8.encode name)))
  | .call => call
  | .object n => do
    let _ ← popMany n
    push (.dict [])
  | .markedObject n => do
    let _ ← popMark
    let _ ← popMany n
    push (.dict [])
  | .build => do
    let state ← pop
    let _ ← pop
    push state

end Exec

/-! ## Runs -/

/-- A finished run: the item that was on top at STOP, the machine without it, and
    the input after STOP. -/
structure Finished where
  result : Item
  machine : Machine
  cursor : Cursor

namespace Machine

/-- Runs from a cursor up to STOP. A fault of an instruction is placed after its
    argument. -/
def run (m : Machine) (c : Cursor) : Except Fault Finished :=
  match h : Instruction.read c with
  | .error fault => .error fault
  | .ok (.stop, c') =>
    match Exec.pop.run m with
    | .error cause => .error (.machine c'.offset cause)
    | .ok (result, m) => .ok ⟨result, m, c'⟩
  | .ok (i, c') =>
    match (Exec.step i).run m with
    | .error cause => .error (.machine c'.offset cause)
    | .ok (_, m) =>
      have := Instruction.length_rest_lt_of_read h
      run m c'
termination_by c.rest.length

end Machine
end MetricIntake.Pickle
