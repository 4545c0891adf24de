/-! # Issues

A schema that rejects a value says where, and what is wrong there. All issues of a value are
reported, in the order of the fields of the schema.
-/

namespace GraphQuery

/-- What a schema objects to. -/
inductive Problem where
  | missing
  | textType
  | textTooShort
  | integerType
  | integerParsing
  | integerParsingSize
  | integerFromFloat
  | finiteNumber
  | greaterThan
  | valueFault
  | listType
  | recordType
  | invalidDocument
  deriving DecidableEq, Repr

def Problem.code : Problem → String
  | .missing => "missing"
  | .textType => "string_type"
  | .textTooShort => "string_too_short"
  | .integerType => "int_type"
  | .integerParsing => "int_parsing"
  | .integerParsingSize => "int_parsing_size"
  | .integerFromFloat => "int_from_float"
  | .finiteNumber => "finite_number"
  | .greaterThan => "greater_than"
  | .valueFault => "value_error"
  | .listType => "list_type"
  | .recordType => "model_type"
  | .invalidDocument => "json_invalid"

/-- A problem and the path to the value that has it. -/
structure Issue where
  location : List String
  problem : Problem
  deriving DecidableEq, Repr

/-- The issue of a value that lies under a key of a larger one. -/
def Issue.under (key : String) (issue : Issue) : Issue :=
  { issue with location := key :: issue.location }

end GraphQuery
