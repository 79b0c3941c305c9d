-- SUMMARY: The sink that points go to: each is logged and counted.
import MetricIntake.Point

/-!
# The sink

Storage is somebody else's work. Here every point is turned into a log record,
and the records are counted when nobody can send points any more.
-/

namespace MetricIntake

/-- What is logged about a point. -/
structure PointRecord where
  name : String
  value : Binary64
  timestamp : Int
  deriving DecidableEq, Repr

namespace PointRecord

def ofPoint (p : Point) : PointRecord := ⟨p.name, p.value, p.timestamp.seconds⟩

def message (_ : PointRecord) : String := "Data point"

/-- The record as a line for people. -/
def line (r : PointRecord) : String :=
  r.message ++ " name=" ++ r.name ++ " value=" ++ r.value.text ++ " timestamp="
    ++ toString r.timestamp

end PointRecord

/-- The records that a sink has logged, newest first. -/
structure LoggingSink where
  newestFirst : List PointRecord := []
  deriving DecidableEq, Repr

namespace LoggingSink

/-- Takes a point. -/
def ingest (s : LoggingSink) (p : Point) : LoggingSink := ⟨.ofPoint p :: s.newestFirst⟩

/-- Takes several points in order. -/
def ingestAll (s : LoggingSink) (ps : List Point) : LoggingSink := ps.foldl ingest s

/-- The records, oldest first. -/
def records (s : LoggingSink) : List PointRecord := s.newestFirst.reverse

def count (s : LoggingSink) : Nat := s.newestFirst.length

@[simp] theorem records_ingest (s : LoggingSink) (p : Point) :
    (s.ingest p).records = s.records ++ [.ofPoint p] := by
  simp [records, ingest]

@[simp] theorem length_records (s : LoggingSink) : s.records.length = s.count := by
  simp [records, count]

end LoggingSink
end MetricIntake
