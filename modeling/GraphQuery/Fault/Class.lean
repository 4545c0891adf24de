/-! # Classes of faults

Faults are classified, and the classes form a hierarchy: whoever handles a class also handles the
classes below it. The faults of this library belong to ten domain classes; the others come from
drivers, files and callers.
-/

namespace GraphQuery

/-- The domain classes. -/
inductive DomainKind where
  | general
  | query
  | connection
  | validation
  | constraint
  | driver
  | session
  | transaction
  | circuitOpen
  | timeout
  deriving DecidableEq, Repr

namespace DomainKind

def name : DomainKind → String
  | .general => "DomainError"
  | .query => "QueryError"
  | .connection => "GraphConnectionError"
  | .validation => "ValidationError"
  | .constraint => "ConstraintError"
  | .driver => "DriverError"
  | .session => "SessionError"
  | .transaction => "TransactionError"
  | .circuitOpen => "CircuitOpenError"
  | .timeout => "QueryTimeoutError"

/-- The tag under which faults of a domain class are reported. -/
def tag : DomainKind → String
  | .connection => "ConnectionError"
  | kind => kind.name

def all : List DomainKind :=
  [.general, .query, .connection, .validation, .constraint, .driver, .session, .transaction,
    .circuitOpen, .timeout]

end DomainKind

/-- Classes of faults. -/
inductive FaultClass where
  | anything
  | arithmetic
  | zeroDivision
  | overflow
  | assertion
  | inconsistency
  | attribute
  | lookup
  | index
  | key
  | system
  | connection
  | timeout
  | fileNotFound
  | fileExists
  | isDirectory
  | notDirectory
  | permission
  | runtime
  | recursion
  | type
  | value
  | unicode
  | encoding
  | document
  | settings
  | serviceUnavailable
  | authentication
  | domain (kind : DomainKind)
  /-- Values that a schema rejects. -/
  | invalid
  | other (name : String)
  deriving DecidableEq, Repr

namespace FaultClass

def name : FaultClass → String
  | .anything => "Exception"
  | .arithmetic => "ArithmeticError"
  | .zeroDivision => "ZeroDivisionError"
  | .overflow => "OverflowError"
  | .assertion => "AssertionError"
  | .inconsistency => "InternalConsistencyError"
  | .attribute => "AttributeError"
  | .lookup => "LookupError"
  | .index => "IndexError"
  | .key => "KeyError"
  | .system => "OSError"
  | .connection => "ConnectionError"
  | .timeout => "TimeoutError"
  | .fileNotFound => "FileNotFoundError"
  | .fileExists => "FileExistsError"
  | .isDirectory => "IsADirectoryError"
  | .notDirectory => "NotADirectoryError"
  | .permission => "PermissionError"
  | .runtime => "RuntimeError"
  | .recursion => "RecursionError"
  | .type => "TypeError"
  | .value => "ValueError"
  | .unicode => "UnicodeDecodeError"
  | .encoding => "UnicodeEncodeError"
  | .document => "JSONDecodeError"
  | .settings => "TOMLDecodeError"
  | .serviceUnavailable => "ServiceUnavailable"
  | .authentication => "AuthError"
  | .domain kind => kind.name
  | .invalid => "ValidationError"
  | .other name => name

def parent? : FaultClass → Option FaultClass
  | .anything => none
  | .zeroDivision | .overflow => some .arithmetic
  | .inconsistency => some .assertion
  | .index | .key => some .lookup
  | .connection | .timeout | .fileNotFound | .fileExists | .isDirectory | .notDirectory
  | .permission => some .system
  | .recursion => some .runtime
  | .unicode | .encoding | .document | .settings | .invalid => some .value
  | .domain .general => some .anything
  | .domain _ => some (.domain .general)
  | _ => some .anything

/-- Whether a class is another one or lies below it. The hierarchy has three levels. -/
def isA (c ancestor : FaultClass) : Bool :=
  c = ancestor || c.parent? = some ancestor || (c.parent?.bind parent?) = some ancestor

/-- The classes that have a name of their own. -/
def named : List FaultClass :=
  [.anything, .arithmetic, .zeroDivision, .overflow, .assertion, .inconsistency, .attribute,
    .lookup, .index, .key, .system, .connection, .timeout, .fileNotFound, .fileExists, .isDirectory,
    .notDirectory, .permission, .runtime, .recursion, .type, .value, .unicode, .encoding, .document, .settings,
    .serviceUnavailable, .authentication] ++ DomainKind.all.map .domain

def ofName (name : String) : FaultClass :=
  (named.find? fun c => c.name = name).getD (.other name)

end FaultClass

end GraphQuery
