-- SUMMARY: The name and version that a process reports of itself.

/-!
# The program
-/

namespace MetricIntake.Program

def name : String := "timeriver"

def version : String := "0.1.0"

end MetricIntake.Program
