import GraphQuery.Fault.Basic
import GraphQuery.Log
import GraphQuery.Query.Digest

/-! # Reports on queries

Every query that was executed is reported with its digest, its text, how long it took and how often
it was retried. Reports become log lines; so do failures.
-/

namespace GraphQuery

/-- A report on a query. -/
structure QueryMetrics where
  hash : String
  text : String
  duration : Number
  retries : Int
  timestamp : String
  planDigest : Value

namespace QueryMetrics

def channel : String := "cyphergraph.observability.metrics"

def ofQuery (query : Query) (text : String) (duration : Number) (retries : Int)
    (planDigest : Value) (timestamp : String) : Except Fault QueryMetrics := do
  let hash ← ofTree query.hash
  .ok ⟨hash, text, duration, retries, timestamp, planDigest⟩

def toValue (metrics : QueryMetrics) : Value :=
  .object [("ast_hash", .text metrics.hash), ("text", .text metrics.text),
    ("duration_ms", metrics.duration.toValue), ("retries", .int metrics.retries),
    ("timestamp", .text metrics.timestamp), ("plan_digest", metrics.planDigest)]

/-- A number with three places. -/
def threePlaces (x : Number) : String :=
  (x.toFloat?.map (Decimal.fixed 3)).getD ""

def logLine (metrics : QueryMetrics) : LogLine :=
  ⟨.info, channel,
    s!"Query ast_hash={metrics.hash} duration_ms={threePlaces metrics.duration} " ++
      s!"retries={metrics.retries} plan_digest={metrics.planDigest.asText} " ++
      s!"timestamp={metrics.timestamp}"⟩

/-- The text of a time, which for a time stamp is its standard form. -/
def timeText : Value → String
  | .external .datetime standard => standard
  | other => other.asText

/-- The log line of a failure, given what is known about the query. -/
def failureLine (known : List (Value × Value)) (fault : Fault) : LogLine :=
  let hash := (Value.lookup "ast_hash" known).getD .null
  let time := (Value.lookup "timestamp" known).getD .null
  ⟨.error, channel,
    s!"Query failed ast_hash={hash.asText} error={fault.message} timestamp={timeText time}"⟩

end QueryMetrics

end GraphQuery
