-- SUMMARY: The HTTP resources: health and server information, the methods they answer, and the responses.
import MetricIntake.Listen
import MetricIntake.Program
import MetricIntake.Text.Json

/-!
# HTTP

Two resources are served, the first under two paths. They answer `GET`, and
`HEAD` with the same head and no body. Another method on them is refused with
the list of those methods; another path does not exist. The query of a request
is ignored.
-/

namespace MetricIntake.Http

/-- What can be asked for. -/
inductive Resource where
  | health
  | serverInfo
  deriving DecidableEq, Repr

/-- The resource at a path. -/
def Resource.ofPath? : String → Option Resource
  | "/health" | "/healthz" => some .health
  | "/api/v1/server-info" => some .serverInfo
  | _ => none

/-- A request: its method, and its target with the query. -/
structure Request where
  method : String
  target : String
  deriving DecidableEq, Repr

/-- The target without the query. -/
def Request.path (r : Request) : String :=
  String.ofList (r.target.toList.takeWhile (· != '?'))

structure Response where
  status : Nat
  contentType : Option String := none
  /-- The methods that would have been answered. -/
  allow : Option String := none
  body : String := ""
  deriving DecidableEq, Repr

/-! ## Bodies -/

/-- A JSON object of members that are JSON already. -/
def object (members : List (String × String)) : String :=
  let member := fun (m : String × String) => Text.jsonString m.1 ++ ":" ++ m.2
  "\x7b" ++ ",".intercalate (members.map member) ++ "\x7d"

/-- The name of a protocol among the listen specs. -/
def listenKey : Protocol → String
  | .graphiteText => "graphite_text"
  | .graphiteUdp => "graphite_udp"
  | .graphitePickle => "graphite_pickle"
  | .http => "http"

/-- What the server tells about itself. -/
structure ServerInfo where
  listen : ListenConfig
  activeConnections : Nat
  deriving DecidableEq, Repr

def ServerInfo.json (i : ServerInfo) : String :=
  object
    [("service", Text.jsonString Program.name),
      ("version", Text.jsonString Program.version),
      ("listen", object (Protocol.all.map fun p =>
        (listenKey p, Text.jsonString (i.listen.spec p)))),
      ("active_connections", toString i.activeConnections)]

/-- The answer to the question whether the server is alive. -/
def healthJson : String :=
  object
    [("status", Text.jsonString "healthy"),
      ("service", Text.jsonString Program.name),
      ("version", Text.jsonString Program.version)]

def Resource.json (i : ServerInfo) : Resource → String
  | .health => healthJson
  | .serverInfo => i.json

/-! ## Responses -/

/-- Answers a request. -/
def respond (i : ServerInfo) (r : Request) : Response :=
  match Resource.ofPath? r.path with
  | none => { status := 404 }
  | some resource =>
    match r.method with
    | "GET" =>
      { status := 200, contentType := some "application/json", body := resource.json i }
    | "HEAD" => { status := 200, contentType := some "application/json" }
    | _ => { status := 405, allow := some "GET,HEAD" }

end MetricIntake.Http
