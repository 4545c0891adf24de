import GraphQuery.Config.Url
import GraphQuery.Schema.Basic
import GraphQuery.Value.Entries

/-! # Connection settings

Settings say which database to connect to and how. They are checked field by field, and a rejection
reports what was given without the password.
-/

namespace GraphQuery

/-- Connection settings. Times are in milliseconds. -/
structure Settings where
  url : String
  user : String
  password : String
  database : Option String
  timeout : Option Int
  poolSize : Option Int
  lifetime : Option Int
  deriving DecidableEq, Repr

namespace Settings

def schemaName : String := "Neo4jConfig"

/-- The database that is used unless another is named. -/
def standardDatabase : String := "neo4j"

/-- How long queries may take unless settings say otherwise. -/
def standardTimeout : Int := 30000

/-- How many connections are kept unless settings say otherwise. -/
def standardPoolSize : Int := 10

/-- How long connections are kept unless settings say otherwise. -/
def standardLifetime : Int := 3600000

def checkUrl (value : Value) : Checked String :=
  match Schema.text value with
  | .ok url => if Url.isDatabase url then .ok url else Schema.reject .valueFault
  | .error issues => .error issues

def check (entries : List (Value × Value)) : Checked Settings :=
  let url := Schema.field "url" checkUrl entries
  let user := Schema.field "user" Schema.nonemptyText entries
  let password := Schema.field "password" Schema.nonemptyText entries
  let database :=
    Schema.fieldOr "database" (some standardDatabase) (Schema.nullable Schema.text) entries
  let positive (name : String) (standard : Int) : Checked (Option Int) :=
    Schema.fieldOr name (some standard) (Schema.nullable Schema.positive) entries
  let timeout := positive "default_timeout_ms" standardTimeout
  let poolSize := positive "connection_pool_size" standardPoolSize
  let lifetime := positive "max_connection_lifetime_ms" standardLifetime
  match url, user, password, database, timeout, poolSize, lifetime with
  | .ok url, .ok user, .ok password, .ok database, .ok timeout, .ok poolSize, .ok lifetime =>
    .ok ⟨url, user, password, database, timeout, poolSize, lifetime⟩
  | _, _, _, _, _, _, _ =>
    .error (Schema.issues url ++ Schema.issues user ++ Schema.issues password ++
      Schema.issues database ++ Schema.issues timeout ++ Schema.issues poolSize ++
      Schema.issues lifetime)

/-- The fault of settings with issues. The password is left out of what was given. -/
def rejected (entries : List (Value × Value)) (issues : List Issue) : Fault :=
  .validation s!"Invalid Neo4j configuration: {issues.length} error(s)"
    (some (.invalid schemaName issues)) (.text schemaName) (.map (Value.without "password" entries))

def ofValue : Value → Except Fault Settings
  | .map entries => (check entries).mapError (rejected entries)
  | given => .error (.validation "config must be a mapping" none (.text schemaName) given)

def create (url user password : Value) (options : List (Value × Value)) :
    Except Fault Settings :=
  ofValue (.map
    ([(.text "url", url), (.text "user", user), (.text "password", password)] ++ options))

/-- A number that may be absent, as a value. -/
def optionalInt (i : Option Int) : Value :=
  (i.map Value.int).getD .null

def toValue (settings : Settings) : Value :=
  .object [("url", .text settings.url), ("user", .text settings.user),
    ("password", .text settings.password), ("database", Fault.optionalText settings.database),
    ("default_timeout_ms", optionalInt settings.timeout),
    ("connection_pool_size", optionalInt settings.poolSize),
    ("max_connection_lifetime_ms", optionalInt settings.lifetime)]

end Settings

end GraphQuery
