import GraphQuery.Schema.Basic

/-! # Decoders

A decoder turns the first column of a record into a result. It is any function on values, or the
function of a schema. What is neither cannot decode.
-/

namespace GraphQuery

/-- What is given to decode with. -/
inductive Decoder where
  | using (decode : Value → Except Fault Value)
  | unsupported (given : Value)

namespace Decoder

def function : Decoder → Except Fault (Value → Except Fault Value)
  | .using decode => .ok decode
  | .unsupported given => .error (.plain .type s!"Unsupported decoder: {given.display}")

def ofSchema (name : String) (check : Value → Checked Value) : Decoder :=
  .using fun value => (check value).mapError (.invalid name)

def identity : Decoder :=
  .using .ok

/-- The number of items of a value, if it has items. -/
def size : Value → Except Fault Value
  | .text s => .ok (.int s.length)
  | .list items | .tuple items | .set _ items => .ok (.int items.length)
  | .map entries => .ok (.int entries.length)
  | other => .error (.plain .type s!"object of type '{other.typeName}' has no len()")

def itemUnder (name : String) : Value → Except Fault Value
  | .map entries =>
    match Value.lookup name entries with
    | some value => .ok value
    | none => .error (.plain .key name)
  | .list _ | .tuple _ | .text _ =>
    .error (.plain .type "indices must be integers")
  | other => .error (.plain .type s!"'{other.typeName}' object is not subscriptable")

/-- Whether a fault of a decoder means that the value did not fit. -/
def isRejection (fault : Fault) : Bool :=
  fault.isA .value || fault.isA .type || fault.isA .key

/-- The data of a value: the properties of an entity, and other values as they are. -/
def data : Value → Value
  | .entity properties => .map properties
  | value => value

/-- The first column of a record. A map is asked for the key zero. -/
def firstColumn : Value → Except Fault Value
  | .list (first :: _) | .tuple (first :: _) => .ok first
  | .list [] | .tuple [] => .error (.plain .index "index out of range")
  | .text s =>
    match s.toList with
    | c :: _ => .ok (.text (String.singleton c))
    | [] => .error (.plain .index "string index out of range")
  | .map entries =>
    let isZero (key : Value) : Bool :=
      (Number.ofValue? key).any fun x => x.compare? (.int 0) == some .eq
    match entries.find? fun entry => isZero entry.1 with
    | some entry => .ok entry.2
    | none => .error (.plain .key "0")
  | other => .error (.plain .type s!"'{other.typeName}' object is not subscriptable")

/-- The fault of a column without a value. -/
def emptyColumn : Fault :=
  .validation "Query returned null or undefined value" none (.text "decoder") .null

/-- The fault of a column that does not fit. -/
def misfit (raw : Value) (fault : Fault) : Fault :=
  .validation "Failed to decode query result" (some fault) (.text "decoder") raw

/-- Decodes a column. -/
def decodeColumn (decode : Value → Except Fault Value) (raw : Value) : Except Fault Value :=
  match raw with
  | .null => .error emptyColumn
  | raw =>
    match decode (data raw) with
    | .ok result => .ok result
    | .error fault => .error (if isRejection fault then misfit raw fault else fault)

/-- Decodes the first column of a record. -/
def decodeRecord (decode : Value → Except Fault Value) (record : Value) : Except Fault Value := do
  let raw ← firstColumn record
  decodeColumn decode raw

end Decoder

end GraphQuery
