import GraphQuery.Config.Settings
import GraphQuery.Log

/-! # Connections

A driver is created from settings, is asked whether the database can be reached, and opens sessions
that may read or also write. Whatever goes wrong on the way becomes a fault of the domain, unless it
is none of the faults that are expected there.
-/

namespace GraphQuery

/-- What a driver is created with. Connections are kept for a number of seconds. -/
structure DriverOptions where
  url : String
  user : String
  password : String
  poolSize : Int
  lifetime : Float

namespace Settings

def driverOptions (settings : Settings) : Except Fault DriverOptions :=
  let lifetime := settings.lifetime.getD standardLifetime
  match (Number.int lifetime).overPowerOfTen? 3 with
  | none => .error (.plain .overflow "integer division result too large for a float")
  | some seconds =>
    .ok ⟨settings.url, settings.user, settings.password,
      settings.poolSize.getD standardPoolSize, seconds⟩

end Settings

namespace Connection

def channel : String := "cyphergraph.core.driver"

/-- The log line about a driver that was created. -/
def createdLine (settings : Settings) : LogLine :=
  let database := settings.database.getD "None"
  ⟨.debug, channel, s!"Created Neo4j driver url={settings.url} database={database}"⟩

/-- What comes of creating a driver: a log line, or a fault. -/
def created (settings : Settings) : Except Fault Unit → Except Fault LogLine
  | .ok _ => .ok (createdLine settings)
  | .error fault =>
    if fault.isA .value || fault.isA .type then
      .error (.domain .driver s!"Unable to create driver for {settings.url}" (some fault) [])
    else .error fault

/-- Whether a fault means that the database cannot be reached. -/
def isUnreachable (fault : Fault) : Bool :=
  fault.isA .serviceUnavailable || fault.isA .authentication || fault.isA .system

/-- The log line about a database that cannot be reached. -/
def unreachableLine (url : Value) (fault : Fault) : LogLine :=
  ⟨.warning, channel, s!"Neo4j connectivity check failed url={url.asText}: {fault.message}"⟩

/-- What comes of asking whether a database can be reached, and what is logged about it. -/
def verified {Info : Type} (url database : Value) :
    Except Fault Info → Except Fault Info × List LogLine
  | .ok info => (.ok info, [])
  | .error fault =>
    if isUnreachable fault then
      (.error (.unreachable "Unable to reach Neo4j" (some fault) url database),
        [unreachableLine url fault])
    else (.error fault, [])

/-- What a session or a transaction may do. -/
inductive Access where
  | read
  | write
  deriving DecidableEq, Repr

/-- The name of what a session may do. -/
def Access.name : Access → String
  | .read => "READ"
  | .write => "WRITE"

def Access.transaction : Access → String
  | .read => "execute_read"
  | .write => "execute_write"

/-- The options of a session, in the order of their names. No database means the standard one. -/
def sessionOptions (access : Access) (database : Value) : List (String × Value) :=
  (if database.isPresent then [("database", database)] else []) ++
    [("default_access_mode", .text access.name)]

def opened {Content : Type} (access : Access) (answer : Except Fault Content) :
    Except Fault Content :=
  answer.mapError fun fault =>
    .domain .session s!"Unable to open {access.name} session" (some fault) []

/-- What comes of the work of a transaction. Faults of the domain pass unchanged. -/
def settled {Content : Type} (access : Access) (work : Except Fault Content) :
    Except Fault Content :=
  work.mapError fun fault =>
    if fault.isDomain then fault
    else .domain .transaction s!"Transaction failed in {access.transaction}" (some fault) []

/-- The pieces of work that are done one after another until one fails. -/
def attempted {Content : Type} : List (Except Fault Content) → List (Except Fault Content)
  | [] => []
  | .ok content :: rest => .ok content :: attempted rest
  | .error fault :: _ => [.error fault]

end Connection

end GraphQuery
