-- SUMMARY: The command line: reads options, announces the services, and takes lines of points from standard input.
import MetricIntake.Options.Reading
import MetricIntake.Connection.Text
import MetricIntake.Sink

/-!
# Command line

Standard input is served like the stream of one text connection. What its points
and refused lines come to is printed; announcements and faults go to standard
error.
-/

namespace MetricIntake.Main

/-- The variables of the environment that stand in for flags. -/
def readEnvironment : IO (List (String × String)) :=
  Flag.all.filterMapM fun flag => do
    return (← IO.getEnv flag.environmentName).map (flag.environmentName, ·)

/-- All bytes of a stream. -/
partial def readAll (input : IO.FS.Stream) (chunks : Array ByteArray) :
    IO (Array ByteArray) := do
  let chunk ← input.read 65536
  if chunk.isEmpty then return chunks
  readAll input (chunks.push chunk)

/-- The exit code after a reading that came to nothing. -/
def exitCode : OptionsEnd → UInt32
  | .help | .version => 0
  | _ => 2

/-- Serves standard input. -/
def serve (o : Options) : IO UInt32 := do
  for a in o.listen.announcements do
    IO.eprintln a.message
  let chunks ← readAll (← IO.getStdin) #[]
  let bytes := chunks.toList.flatMap fun c => c.toList
  let outcome := Connection.Text.serve o.settings [⟨0, .bytes bytes⟩, ⟨0, .closed⟩]
  for r in (({} : LoggingSink).ingestAll outcome.ingested).records do
    IO.println r.line
  for e in outcome.refused do
    IO.eprintln ("Skipping malformed line: " ++ e.message)
  match outcome.ending with
  | .returned _ (.error e) =>
    IO.eprintln e.message
    return 1
  | _ => return 0

end MetricIntake.Main

/-- Reads options and serves standard input. -/
def main (arguments : List String) : IO UInt32 := do
  let environment ← MetricIntake.Main.readEnvironment
  match MetricIntake.Options.read arguments (fun name => environment.lookup name) with
  | .ok o => MetricIntake.Main.serve o
  | .error e =>
    IO.eprintln e.message
    return MetricIntake.Main.exitCode e
