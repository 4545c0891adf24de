import GraphQuery.Invariant.Basic
import GraphQuery.Service.Decoder
import GraphQuery.Service.Session
import GraphQuery.Value.Display

/-! # Checking invariants

A check sends the statement of an invariant and reads the first record. No record counts as nothing
broken, and so does a null. Counts may be any number, which is rounded toward zero, or the text of
an integer.
-/

namespace GraphQuery

namespace Value

/-- The fault of a value that is no number. -/
def notWhole (value : Value) : Fault :=
  .plain .type s!"'{value.typeName}' object is not a number"

def wholeOfDecimal (s : String) : Except Fault Int :=
  let (negative, body) := Decimal.takeSign s.toList
  match Decimal.unsigned? body with
  | some d =>
    let (numerator, denominator) := Decimal.powerOfTen d.scale
    .ok (Decimal.withSign negative (d.coefficient * numerator / denominator))
  | none =>
    if body.head?.any fun c => c == 'I' || c == 'i' then
      .error (.plain .overflow "cannot convert Infinity to integer")
    else .error (.plain .value "cannot convert NaN to integer")

def whole : Value → Except Fault Int
  | .bool b => .ok (if b then 1 else 0)
  | .int i => .ok i
  | .float x =>
    match FloatForm.ofFloat x with
    | .nan => .error (.plain .value "cannot convert float NaN to integer")
    | .infinite _ => .error (.plain .overflow "cannot convert float infinity to integer")
    | .finite negative mantissa exponent =>
      .ok (FloatForm.truncate negative mantissa exponent)
  | .text s => (Decimal.integer s).mapError (Fault.ofInteger s)
  | .external .decimal s => wholeOfDecimal s
  | other => .error (notWhole other)

/-- The items of a value: characters of a text, keys of a map. -/
def items : Value → Except Fault (List Value)
  | .list items | .tuple items | .set _ items => .ok items
  | .text s => .ok (s.toList.map fun c => .text (String.singleton c))
  | .map entries => .ok (entries.map Prod.fst)
  | other => .error (.plain .type s!"'{other.typeName}' object is not iterable")

end Value

/-- What came of checking an invariant. -/
structure Verdict where
  name : String
  passed : Bool
  message : String
  /-- Samples of what breaks the invariant. -/
  details : Option Value

namespace Verdict

def channel : String := "cyphergraph.invariants.checker"

/-- The details as messages show them. -/
def detailText (verdict : Verdict) : String :=
  (verdict.details.getD .null).display

/-- The log line about a broken invariant. -/
def failureLine (verdict : Verdict) : LogLine :=
  ⟨.error, channel,
    s!"Invariant failed: {verdict.name}: {verdict.message} details={verdict.detailText}"⟩

/-- The log line about a number of invariants that all hold. -/
def successLine (count : Nat) : LogLine :=
  ⟨.info, channel, s!"All {count} invariant checks passed"⟩

def failures (verdicts : List Verdict) : List Verdict :=
  verdicts.filter fun verdict => !verdict.passed

/-- What is logged about verdicts: each broken invariant, or that there is none. -/
def logLines (verdicts : List Verdict) : List LogLine :=
  match failures verdicts with
  | [] => [successLine verdicts.length]
  | broken => broken.map failureLine

end Verdict

namespace Invariant

/-- A column of a record. Without a record, and for a null, the default counts. -/
def column (record : Value) (name : String) (default : Value) : Except Fault Value :=
  match record with
  | .null => .ok default
  | record =>
    (Decoder.itemUnder name record).map fun
      | .null => default
      | value => value

/-- What a record says about an invariant. -/
def judge (invariant : Invariant) (record : Value) : Except Fault Verdict := do
  let count ← column record invariant.countColumn (.int 0)
  let broken ← count.whole
  if broken = 0 then
    .ok ⟨invariant.name, true, invariant.success, none⟩
  else
    let found ← column record invariant.sampleColumn (.list [])
    let samples ← found.items
    .ok ⟨invariant.name, false, invariant.failure broken,
      some (.object [(invariant.sampleColumn, .list samples)])⟩

def check (invariant : Invariant) (session : Session) : Except Fault Verdict × Session :=
  let (records, after) := session.send ⟨invariant.text, []⟩
  (records.bind fun records => invariant.judge (records.head?.getD .null), after)

/-- Checks invariants one after another until a check fails to come to a verdict. -/
def checkAll : List Invariant → Session → Except Fault (List Verdict) × Session
  | [], session => (.ok [], session)
  | invariant :: rest, session =>
    match invariant.check session with
    | (.error fault, after) => (.error fault, after)
    | (.ok verdict, after) =>
      let (verdicts, last) := checkAll rest after
      (verdicts.map (verdict :: ·), last)

/-- Checks invariants and logs the outcome: the verdicts of those that are broken. -/
def enforce (invariants : List Invariant) (session : Session) :
    Except Fault (List Verdict) × Session :=
  match checkAll invariants session with
  | (.error fault, after) => (.error fault, after)
  | (.ok verdicts, after) =>
    (.ok (Verdict.failures verdicts), { after with log := after.log ++ Verdict.logLines verdicts })

/-- A check sends one statement, the one of the invariant. -/
@[simp] theorem sent_check (invariant : Invariant) (session : Session) :
    (invariant.check session).2.sent = session.sent ++ [⟨invariant.text, []⟩] := by
  simp [check]

end Invariant

end GraphQuery
