import GraphQuery.Metrics.Latency
import GraphQuery.Metrics.Report
import GraphQuery.Service.Decoder
import GraphQuery.Service.Session

/-! # Running queries

A query is sent, and the first column of every record is decoded. A decoder that cannot decode is
refused before anything is sent. A query that is given as a tree is normalized and written first;
its time is recorded if it succeeds, and a failure is logged instead.
-/

namespace GraphQuery

namespace Session

/-- Runs a statement and decodes the first column of every record. -/
def run (statement : Statement) (decoder : Decoder) (session : Session) :
    Except Fault (List Value) × Session :=
  match decoder.function with
  | .error fault => (.error fault, session)
  | .ok decode =>
    match session.send statement with
    | (.error fault, after) => (.error fault, after)
    | (.ok records, after) => (records.mapM (Decoder.decodeRecord decode), after)

/-- The single result among results. -/
def single (statement : Statement) : List Value → Except Fault Value
  | [] => .error (.query "Query returned no results" none (.text statement.text)
      statement.parameters)
  | [result] => .ok result
  | _ => .error (.query "Query returned multiple results, expected one" none
      (.text statement.text) statement.parameters)

/-- Runs a statement that has exactly one record. -/
def runSingle (statement : Statement) (decoder : Decoder) (session : Session) :
    Except Fault Value × Session :=
  let (results, after) := session.run statement decoder
  (results.bind (single statement), after)

def batchStatement (entry : List (Value × Value)) : Except Fault Statement :=
  match Value.lookup "text" entry with
  | none => .error (.plain .key "text")
  | some text =>
    match Value.lookup "parameters" entry with
    | some (.map parameters) => .ok ⟨text.asText, parameters⟩
    | _ => .ok ⟨text.asText, []⟩

/-- Runs the entries of a batch one after another until one fails. -/
def runBatch : List (List (Value × Value)) → Session →
    Except Fault (List (List Value)) × Session
  | [], session => (.ok [], session)
  | entry :: rest, session =>
    match batchStatement entry with
    | .error fault => (.error fault, session)
    | .ok statement =>
      match session.send statement with
      | (.error fault, after) => (.error fault, after)
      | (.ok records, after) =>
        match runBatch rest after with
        | (.ok others, last) => (.ok (records :: others), last)
        | (.error fault, last) => (.error fault, last)

end Session

/-- What is logged about a query that was given as a tree. -/
inductive QueryRecord where
  | completed (metrics : QueryMetrics)
  | failed (hash text : String) (fault : Fault)

/-- Who watches queries: a tracker of latencies and a logger, if there are any, and a clock, given
by the readings that it will show. The logger is one that never fails. -/
structure Observers where
  tracker : Option LatencyTracker
  log : Option (List QueryRecord)
  clock : List Number

namespace Observers

/-- Reads the clock. A clock without readings shows zero. -/
def read (observers : Observers) : Number × Observers :=
  match observers.clock with
  | [] => (.int 0, observers)
  | time :: rest => (time, { observers with clock := rest })

/-- The milliseconds between two readings. -/
def milliseconds (started ended : Number) : Except Fault Number :=
  match (ended.sub? started).bind fun seconds => seconds.mul? (.int 1000) with
  | some duration => .ok duration
  | none => .error .tooLargeForFloat

def logFailure (hash text : String) (fault : Fault) (observers : Observers) : Observers :=
  { observers with log := observers.log.map (· ++ [.failed hash text fault]) }

def logSuccess (metrics : QueryMetrics) (observers : Observers) : Observers :=
  { observers with
    tracker := observers.tracker.map (LatencyTracker.record metrics.duration)
    log := observers.log.map (· ++ [.completed metrics]) }

end Observers

namespace Session

/-- Runs a query that is given as a tree, in its normal form. -/
def runQuery (query : Query) (decoder : Decoder) (timestamp : String) (observers : Observers)
    (session : Session) : Except Fault (List Value) × Observers × Session :=
  match ofTree query.build, ofTree query.hash with
  | .error fault, _ => (.error fault, observers, session)
  | .ok _, .error fault => (.error fault, observers, session)
  | .ok statement, .ok hash =>
    let (started, observers) := observers.read
    match session.run statement decoder with
    | (.error fault, after) =>
      if fault.isDomain then (.error fault, observers.logFailure hash statement.text fault, after)
      else (.error fault, observers, after)
    | (.ok results, after) =>
      let (ended, observers) := observers.read
      match Observers.milliseconds started ended with
      | .error fault => (.error fault, observers, after)
      | .ok duration =>
        let metrics : QueryMetrics := ⟨hash, statement.text, duration, 0, timestamp, .null⟩
        (.ok results, observers.logSuccess metrics, after)

end Session

end GraphQuery
