-- SUMMARY: Why a line, a datagram line or a pickled record gives no point, with the wording of each cause.
import MetricIntake.Number.Literal
import MetricIntake.Pickle.Value
import MetricIntake.Pickle.Fault

/-!
# Decode errors

One cause per way in which input is refused. The wording is in
`DecodeError.message` alone.
-/

namespace MetricIntake

/-- The parts of a pickled batch, from the outside in. -/
inductive BatchPart where
  | batch | record | name | datapoint | timestamp | value
  deriving DecidableEq, Repr

namespace BatchPart

/-- What the part is called. -/
def label : BatchPart → String
  | .batch => "batch"
  | .record => "record"
  | .name => "name"
  | .datapoint => "datapoint"
  | .timestamp => "timestamp"
  | .value => "value"

/-- What the part has to be. -/
def expected : BatchPart → String
  | .batch | .record | .datapoint => "list or tuple"
  | .name => "string"
  | .timestamp => "int"
  | .value => "float"

end BatchPart

/-- Why input gives no point. -/
inductive DecodeError where
  | fieldCount (found : Nat)
  | value (token : String)
  | timestamp (token : String) (fault : Literal.IntegerFault)
  | timestampRange (seconds : Int)
  | lineTooLong (max : Nat)
  | utf8
  | wrongType (part : BatchPart) (found : Pickle.Kind)
  | wrongLength (part : BatchPart) (found : Nat)
  | payloadTooLarge (max : Nat)
  | pickle (fault : Pickle.Fault)
  deriving DecidableEq, Repr

def DecodeError.message : DecodeError → String
  | .fieldCount found => "expected 3 fields, found " ++ toString found
  | .value token => "invalid value " ++ Text.quote token ++ ": invalid float literal"
  | .timestamp token fault => "invalid timestamp " ++ Text.quote token ++ ": " ++ fault.message
  | .timestampRange seconds => "timestamp " ++ toString seconds ++ " out of range"
  | .lineTooLong max => "line exceeds " ++ toString max ++ " bytes"
  | .utf8 => "line is not valid UTF-8"
  | .wrongType part found =>
    part.label ++ ": expected " ++ part.expected ++ ", found " ++ found.name
  | .wrongLength part found => part.label ++ " wrong length: " ++ toString found
  | .payloadTooLarge max => "pickle payload exceeds " ++ toString max ++ " bytes"
  | .pickle fault => "pickle: " ++ fault.message

end MetricIntake
