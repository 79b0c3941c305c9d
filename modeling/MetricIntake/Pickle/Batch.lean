-- SUMMARY: A batch of records: which value is a point, and records decoded one at a time up to the first malformed one.
import MetricIntake.Pickle.Resolve
import MetricIntake.Point

/-!
# Batches

A batch is a list or tuple of records `(name, (timestamp, value))`; lists and
tuples are interchangeable at every level. Records are decoded on demand. The
first malformed record is reported and ends the batch.
-/

namespace MetricIntake

namespace Pickle.Value

/-- The items of a part that has to be a sequence. -/
def sequence (part : BatchPart) (v : Value) : Except DecodeError (List Value) :=
  match v.items? with
  | .some items => .ok items
  | .none => .error (.wrongType part v.kind)

/-- The two items of a part that has to be a pair. -/
def pair (part : BatchPart) (v : Value) : Except DecodeError (Value × Value) := do
  match ← v.sequence part with
  | [a, b] => return (a, b)
  | items => throw (.wrongLength part items.length)

/-- The name of a record. -/
def name : Value → Except DecodeError String
  | .str s => .ok s
  | v => .error (.wrongType .name v.kind)

/-- The timestamp of a record, in seconds. -/
def seconds : Value → Except DecodeError Int64
  | .int64 i => .ok i
  | v => .error (.wrongType .timestamp v.kind)

/-- The value of a record; an integer is rounded to the nearest float. -/
def number : Value → Except DecodeError Binary64
  | .float x => .ok x
  | .int64 i => .ok (.ofInt i.toInt)
  | v => .error (.wrongType .value v.kind)

end Pickle.Value

/-- The point of a record. -/
def Point.ofRecord (v : Pickle.Value) : Except DecodeError Point := do
  let (name, datapoint) ← v.pair .record
  let name ← name.name
  let (timestamp, value) ← datapoint.pair .datapoint
  let seconds ← timestamp.seconds
  let value ← value.number
  Point.ofUnix name seconds.toInt value

/-- The records of a batch that have not been decoded. -/
structure Batch where
  records : List Pickle.Value
  /-- A malformed record has been reported. -/
  failed : Bool := false

namespace Batch

/-- The batch that a value denotes. -/
def ofValue (v : Pickle.Value) : Except DecodeError Batch :=
  return { records := ← v.sequence .batch }

/-- The batch that a byte string pickles for an unpickler. -/
def ofPickleWith (unpickle : Pickle.Unpickler) (payload : List UInt8) :
    Except DecodeError Batch := do
  let value ← (unpickle payload).mapError .pickle
  ofValue value

/-- The batch that a byte string pickles. -/
def ofPickle : List UInt8 → Except DecodeError Batch :=
  ofPickleWith Pickle.Value.ofPickle

/-- How many records may still come. -/
def remaining (b : Batch) : Nat :=
  if b.failed then 0 else b.records.length

/-- Decodes the next record, unless one has failed. -/
def next (b : Batch) : Option (Except DecodeError Point × Batch) :=
  if b.failed then none
  else match b.records with
    | [] => none
    | record :: records =>
      match Point.ofRecord record with
      | .ok p => some (.ok p, { records })
      | .error e => some (.error e, { records, failed := true })

theorem length_records_lt_of_next {b b' : Batch} {r : Except DecodeError Point}
    (h : b.next = some (r, b')) : b'.records.length < b.records.length := by
  unfold next at h
  split at h
  · cases h
  · split at h
    · cases h
    · rename_i hr
      rw [hr]
      split at h <;> (cases h; simp)

/-- Everything that the batch yields, in order. -/
def drain (b : Batch) : List (Except DecodeError Point) :=
  match h : b.next with
  | none => []
  | some (r, b') =>
    have := length_records_lt_of_next h
    r :: drain b'
termination_by b.records.length

/-- The points before the first malformed record. -/
def points (b : Batch) : List Point :=
  b.drain.filterMap Except.toOption

/-- The fault of the malformed record, if there is one. -/
def fault? (b : Batch) : Option DecodeError :=
  b.drain.findSome? fun
    | .error e => some e
    | .ok _ => none

end Batch
end MetricIntake
