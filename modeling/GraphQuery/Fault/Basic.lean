import GraphQuery.Fault.Class
import GraphQuery.Fault.Issue
import GraphQuery.Json.Reader
import GraphQuery.Number
import GraphQuery.Syntax.Decoding
import GraphQuery.Syntax.Fault

/-! # Faults

A fault is what an operation ends with if it has no result. Domain faults carry the fault that
caused them and a context for logs; the faults of a schema list every place that it rejects.
-/

namespace GraphQuery

/-- Faults. -/
inductive Fault where
  | plain (cls : FaultClass) (message : String)
  | domain (kind : DomainKind) (message : String) (cause : Option Fault)
      (context : List (String × Value))
  | invalid (model : String) (issues : List Issue)
  deriving Inhabited

namespace Fault

def cls : Fault → FaultClass
  | .plain cls _ => cls
  | .domain kind _ _ _ => .domain kind
  | .invalid _ _ => .invalid

def isA (fault : Fault) (ancestor : FaultClass) : Bool :=
  fault.cls.isA ancestor

/-- Whether a fault belongs to the domain. -/
def isDomain : Fault → Bool
  | .domain _ _ _ _ => true
  | _ => false

/-- Whether a fault belongs to the domain and is reported under a tag. -/
def hasTag (tag : String) : Fault → Bool
  | .domain kind _ _ _ => kind.tag = tag
  | _ => false

/-- The first line about the faults of a schema. -/
def summary (model : String) (issues : List Issue) : String :=
  let noun := if issues.length = 1 then "error" else "errors"
  s!"{issues.length} validation {noun} for {model}"

/-- The message of a fault. A key that was not found is shown as a key. -/
def message : Fault → String
  | .plain .key message => Text.display message
  | .plain _ message => message
  | .domain _ message _ _ => message
  | .invalid model issues => summary model issues

/-- A fault as reports show it: its class and its message. -/
def display : Fault → String
  | .plain cls message => s!"{cls.name}({Text.display message})"
  | .domain kind message _ _ => s!"{kind.name}({Text.display message})"
  | .invalid model issues => summary model issues

def report (kind : DomainKind) (message : String) (cause : Option Fault)
    (context : List (String × Value)) : Value :=
  .object [("tag", .text kind.tag), ("message", .text message),
    ("cause", (cause.map fun fault => Value.text fault.display).getD .null),
    ("context", .object context)]

/-! ## Domain faults -/

/-- A text that may be absent, as a value. -/
def optionalText (s : Option String) : Value :=
  (s.map Value.text).getD .null

/-- A query failed or gave an unexpected number of rows. -/
def query (message : String) (cause : Option Fault) (text : Value)
    (parameters : List (Value × Value)) : Fault :=
  .domain .query message cause [("query", text), ("parameters", .map parameters)]

def unreachable (message : String) (cause : Option Fault) (url database : Value) : Fault :=
  .domain .connection message cause [("url", url), ("database", database)]

def validation (message : String) (cause : Option Fault) (schema rawData : Value) : Fault :=
  .domain .validation message cause [("schema", schema), ("raw_data", rawData)]

def constraint (message : String) (cause : Option Fault) (name : Value)
    (values : List (Value × Value)) : Fault :=
  .domain .constraint message cause [("constraint", name), ("values", .map values)]

/-- A circuit breaker did not let a call pass. -/
def circuitOpen (breaker : String) : Fault :=
  .domain .circuitOpen s!"Circuit breaker {breaker} is open" none [("breaker", .text breaker)]

/-- An integer is beyond the range of floats. -/
def tooLargeForFloat : Fault :=
  .plain .overflow "int too large to convert to float"

/-- A time is longer than anything can wait. -/
def tooLongToWait : Fault :=
  .plain .overflow "timestamp out of range for platform time_t"

/-- A query ran longer than it may. -/
def timedOut (timeout : Number) (text : Value) : Fault :=
  match timeout.toFloat? with
  | none => tooLargeForFloat
  | some x =>
    .domain .timeout s!"Query timed out after {Decimal.general x} ms" none
      [("timeout_ms", timeout.toValue), ("query", text)]

/-- The fault of a class with nothing but a text. A time limit cannot be made from a text. -/
def ofClass (cls : FaultClass) (message : String) : Fault :=
  match cls with
  | .domain .query => query message none .null []
  | .domain .connection => unreachable message none .null .null
  | .domain .validation => validation message none .null .null
  | .domain .constraint => constraint message none .null []
  | .domain .circuitOpen => circuitOpen message
  | .domain .timeout => .plain .value "Unknown format code 'g' for object of type 'str'"
  | .domain kind => .domain kind message none []
  | cls => .plain cls message

/-- Something is nested too deeply to be followed. -/
def tooDeep : Fault :=
  .plain .recursion "maximum recursion depth exceeded"

/-! ## Faults of other parts -/

/-- The fault of a tree that cannot be read. -/
def ofTree (fault : TreeFault) : Fault :=
  match fault with
  | .missingField => .plain .attribute fault.message
  | .unorderedKeys => .plain .type fault.message
  | fault => .plain .inconsistency fault.message

def ofDecoding (fault : DecodeFault) : Fault :=
  .plain .value fault.message

/-- The fault of a text that is no document. -/
def ofDocument (source : String) (fault : Json.Fault) : Fault :=
  match fault.problem with
  | .integerTooLong _ => .plain .value (fault.message source)
  | _ => .plain .document (fault.message source)

/-- The fault of a text that is no integer. -/
def ofInteger (s : String) : Decimal.IntegerFault → Fault
  | .malformed => .plain .value s!"invalid literal for int() with base 10: {Text.display s}"
  | .tooLong digits => .plain .value (Decimal.tooLongMessage digits)

end Fault

def ofTree {Result : Type} : Except TreeFault Result → Except Fault Result
  | .ok result => .ok result
  | .error fault => .error (.ofTree fault)

@[simp] theorem ofTree_eq_ok_iff {Result : Type} {step : Except TreeFault Result} {result : Result} :
    ofTree step = .ok result ↔ step = .ok result := by
  cases step <;> simp [ofTree]

end GraphQuery
